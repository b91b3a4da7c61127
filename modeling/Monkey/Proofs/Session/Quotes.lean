import Monkey.Proofs.Evaluation.Policy
import Monkey.Proofs.Reading.Wording
import Monkey.Proofs.Session.Lines
import Monkey.Proofs.Store.Basic

/-!
# No quote in a string

No string that is made in a session has a quote in it: literals have none, and operations join only
what has none or name a type. In the same way the functions of a session are those of its lines, so
that their parameters and bodies can be written.
-/

namespace Monkey

def Literal.Spellable : Literal → Prop
  | .str text => '"' ∉ text.toList
  | .fn params body => (∀ param ∈ params, IsName param) ∧ Program.Spellable body

mutual

theorem Expr.spellable_literals :
    ∀ expr : Expr, expr.Spellable → ∀ literal ∈ expr.literals, literal.Spellable
  | .ident _, _ | .int _, _ | .bool _, _ => List.forall_mem_nil _
  | .str _, spellable => List.forall_mem_singleton.mpr spellable
  | .unary _ operand, spellable => operand.spellable_literals spellable
  | .binary left _ right, spellable =>
      List.forall_mem_append.mpr
        ⟨left.spellable_literals spellable.1, right.spellable_literals spellable.2⟩
  | .ifThen condition consequence, spellable =>
      List.forall_mem_append.mpr
        ⟨condition.spellable_literals spellable.1,
          Program.spellable_literals consequence spellable.2⟩
  | .ifElse condition consequence alternative, spellable =>
      List.forall_mem_append.mpr
        ⟨condition.spellable_literals spellable.1, List.forall_mem_append.mpr
          ⟨Program.spellable_literals consequence spellable.2.1,
            Program.spellable_literals alternative spellable.2.2⟩⟩
  | .fn _ _, spellable => List.forall_mem_singleton.mpr spellable
  | .call callee args, spellable =>
      List.forall_mem_append.mpr
        ⟨callee.spellable_literals spellable.1, Expr.allSpellable_literals args spellable.2⟩
termination_by structural expr => expr

theorem Expr.allSpellable_literals : ∀ args : List Expr, Expr.AllSpellable args →
    ∀ literal ∈ Expr.allLiterals args, literal.Spellable
  | [], _ => List.forall_mem_nil _
  | arg :: rest, spellable =>
      List.forall_mem_append.mpr
        ⟨arg.spellable_literals spellable.1, Expr.allSpellable_literals rest spellable.2⟩
termination_by structural args => args

theorem Stmt.spellable_literals :
    ∀ stmt : Stmt, stmt.Spellable → ∀ literal ∈ stmt.literals, literal.Spellable
  | .letBe _ value, spellable => value.spellable_literals spellable.2
  | .ret value, spellable | .expr value, spellable => value.spellable_literals spellable
  | .block body, spellable => Program.spellable_literals body spellable
termination_by structural stmt => stmt

theorem Program.spellable_literals : ∀ stmts : List Stmt, Program.Spellable stmts →
    ∀ literal ∈ Program.literals stmts, literal.Spellable
  | [], _ => List.forall_mem_nil _
  | stmt :: rest, spellable =>
      List.forall_mem_append.mpr
        ⟨stmt.spellable_literals spellable.1, Program.spellable_literals rest spellable.2⟩
termination_by structural stmts => stmts

end

/-! ### Values -/

/-- A string has no quote, and a function can be written. -/
def Value.Spellable : Value → Prop
  | .str _ text => '"' ∉ text.toList
  | .fn _ params body _ => (∀ param ∈ params, IsName param) ∧ Program.Spellable body
  | .returned value => value.Spellable
  | _ => True

namespace Value

theorem Atomic.spellable {value : Value} (atomic : value.Atomic) : value.Spellable := by
  cases atomic <;> trivial

theorem Spellable.arrived {value : Value} (spellable : value.Spellable) :
    value.arrived.Spellable := by
  cases value <;> exact spellable

theorem MadeOf.spellable {operands : List Value} {fresh : Nat} {value : Value}
    (madeOf : value.MadeOf operands fresh) (spellable : ∀ operand ∈ operands, operand.Spellable) :
    value.Spellable := by
  cases madeOf with
  | atomic atomic => exact atomic.spellable
  | joined leftMember rightMember =>
      intro member
      rw [String.toList_append, List.mem_append] at member
      rcases member with inLeft | inRight
      · exact spellable _ leftMember inLeft
      · exact spellable _ rightMember inRight
  | typeText name =>
      intro member
      revert member
      cases name <;> decide
  | builtin => trivial

end Value

/-! ### Evaluations -/

/-- Evaluations of what can be written make nothing else. -/
def Policy.spellable : Policy where
  pre machine := machine.store.Binds Value.Spellable
  allows _ literal := literal.Spellable
  fits _ value := value.Spellable
  post _ value later := later.store.Binds Value.Spellable ∧ value.Spellable
  applied _ value later := later.store.Binds Value.Spellable ∧ value.Spellable
  settled _ post := post.1
  ready _ post _ := post.2
  keeps _ _ fits := fits
  carries _ _ allowed := allowed
  trans _ _ next := next
  arrived post := ⟨post.1, post.2.arrived⟩
  post_of_applied applied := applied
  atomic _ atomic := atomic.spellable
  value pre fits := ⟨pre, fits⟩
  returned pre fits := ⟨pre, fits⟩
  str pre allowed := ⟨pre, allowed⟩
  close pre allowed := ⟨pre, allowed⟩
  made pre operandsFit madeOf := ⟨pre, madeOf.spellable operandsFit⟩
  failed _ pre := ⟨pre, trivial⟩
  lookup pre found := ⟨pre, pre.get? found⟩
  bind name pre fits := ⟨pre.set _ name fits, trivial⟩
  answer pre _ argsFit madeOf := ⟨pre, madeOf.spellable argsFit⟩
  refuse _ pre _ _ := ⟨pre, trivial⟩
  enter {machine identity params body env args} pre calleeFits argsFit _ := by
    have applying :
        (machine.applying (.fn identity params body env) args).store.Binds Value.Spellable := pre
    exact ⟨applying.inside env params argsFit, Program.spellable_literals body calleeFits.2⟩
  leave _ _ _ _ post := ⟨post.1, post.2.arrived⟩

theorem Program.spellable_of_eval {program : Program} (spellable : Program.Spellable program)
    {fuel : Nat} {env : Env} {store later : Store} {value : Value} (binds : store.Binds Value.Spellable)
    (ends : program.eval fuel env store = some (value, later)) :
    later.Binds Value.Spellable ∧ value.Spellable := by
  rcases Option.map_eq_some_iff.mp ends with ⟨⟨result, last⟩, ran, answered⟩
  cases answered
  have pre : Policy.spellable.pre ⟨env, store⟩ := binds
  have post := Policy.meets_program fuel program pre (Program.spellable_literals program spellable) ran
  exact post

/-! ### Sessions -/

namespace Session

theorem spellable_of_runLine {session later : Session} {fuel : Nat} {line output : String}
    (binds : session.store.Binds Value.Spellable)
    (ran : session.runLine fuel line = some (output, later)) :
    later.store.Binds Value.Spellable := by
  by_cases reads : (parseText line).2 = []
  · have program : parseText line = ((parseText line).1, []) := by rw [← reads]
    rw [runLine_of_reads program, Option.map_eq_some_iff] at ran
    rcases ran with ⟨⟨value, store⟩, ends, answered⟩
    cases answered
    exact (Program.spellable_of_eval (spellable_of_parseText program) binds ends).1
  · rw [runLine_of_errors reads] at ran
    cases ran
    exact binds

/-- After any number of lines, all that names are bound to can be written. -/
theorem Runs.spellable {session last : Session} {entries : List (String × String)}
    (runs : session.Runs entries last) (binds : session.store.Binds Value.Spellable) :
    last.store.Binds Value.Spellable := by
  induction runs with
  | nil => exact binds
  | cons ran _ ih => exact ih (spellable_of_runLine binds ran)

end Session

end Monkey
