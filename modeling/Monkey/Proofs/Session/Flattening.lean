import Monkey.Program.Printer
import Monkey.Proofs.Session.Repetition

/-!
# Blocks make no difference

A block has no scope of its own and is no boundary for a return. A program may as well have its
statements instead, wherever it stands: what can be seen of an evaluation stays the same. Functions keep
their bodies, and so the stores of the two evaluations do differ, but not in what is shown of them.
-/

namespace Monkey

/-! ### Taking statements out of blocks -/

mutual

/-- The expression with the statements of its blocks in place of the blocks. -/
def Expr.flatten : Expr → Expr
  | .ident name => .ident name
  | .int value => .int value
  | .bool value => .bool value
  | .str text => .str text
  | .unary op operand => .unary op operand.flatten
  | .binary left op right => .binary left.flatten op right.flatten
  | .ifThen condition consequence => .ifThen condition.flatten (Program.flatten consequence)
  | .ifElse condition consequence alternative =>
    .ifElse condition.flatten (Program.flatten consequence) (Program.flatten alternative)
  | .fn params body => .fn params (Program.flatten body)
  | .call callee args => .call callee.flatten (Expr.flattenAll args)

def Expr.flattenAll : List Expr → List Expr
  | [] => []
  | expr :: rest => expr.flatten :: Expr.flattenAll rest

/-- The statement, or the statements that it has if it is a block. An empty block stays. -/
def Stmt.flatten : Stmt → List Stmt
  | .letBe name value => [.letBe name value.flatten]
  | .ret value => [.ret value.flatten]
  | .expr value => [.expr value.flatten]
  | .block [] => [.block []]
  | .block body => Program.flatten body

def Program.flatten : List Stmt → List Stmt
  | [] => []
  | stmt :: rest => stmt.flatten ++ Program.flatten rest

end

/-! ### The text -/

theorem Program.text_append (first second : Program) :
    Program.text (first ++ second) = Program.text first ++ Program.text second := by
  induction first with
  | nil => simp [Program.text]
  | cons stmt rest ih => simp [Program.text, ih, String.append_assoc]

theorem Program.text_singleton (stmt : Stmt) : Program.text [stmt] = stmt.text := by
  simp [Program.text]

mutual

theorem Expr.text_flatten : ∀ expr : Expr, expr.flatten.text = expr.text
  | .ident _ | .int _ | .bool _ | .str _ => rfl
  | .unary _ operand => by simp only [Expr.flatten, Expr.text, operand.text_flatten]
  | .binary left _ right => by
      simp only [Expr.flatten, Expr.text, left.text_flatten, right.text_flatten]
  | .ifThen condition consequence => by
      simp only [Expr.flatten, Expr.text, condition.text_flatten, Program.text_flatten consequence]
  | .ifElse condition consequence alternative => by
      simp only [Expr.flatten, Expr.text, condition.text_flatten, Program.text_flatten consequence,
        Program.text_flatten alternative]
  | .fn _ body => by simp only [Expr.flatten, Expr.text, Program.text_flatten body]
  | .call callee args => by
      simp only [Expr.flatten, Expr.text, callee.text_flatten, Expr.texts_flattenAll args]
termination_by structural expr => expr

theorem Expr.texts_flattenAll :
    ∀ args : List Expr, Expr.texts (Expr.flattenAll args) = Expr.texts args
  | [] => rfl
  | arg :: rest => by
      simp only [Expr.flattenAll, Expr.texts, arg.text_flatten, Expr.texts_flattenAll rest]
termination_by structural args => args

theorem Stmt.text_flatten : ∀ stmt : Stmt, Program.text stmt.flatten = stmt.text
  | .letBe _ value | .ret value | .expr value => by
      simp only [Stmt.flatten, Program.text_singleton, Stmt.text, value.text_flatten]
  | .block [] => rfl
  | .block (stmt :: rest) => by
      simp only [Stmt.flatten, Stmt.text, Program.text_flatten (stmt :: rest)]
termination_by structural stmt => stmt

theorem Program.text_flatten :
    ∀ stmts : List Stmt, Program.text (Program.flatten stmts) = Program.text stmts
  | [] => rfl
  | stmt :: rest => by
      rw [Program.flatten, Program.text_append, stmt.text_flatten, Program.text_flatten rest]
      rfl
termination_by structural stmts => stmts

end

/-! ### The two evaluations -/

/-- Functions may have bodies without their blocks. -/
def Likeness.flattening : Likeness where
  names _ := True
  bodies body other := other = body ∨ other = Program.flatten body
  text := by
    rintro body _ (rfl | rfl)
    · rfl
    · exact (Program.text_flatten body).symm

theorem Likeness.seen_flattening (name : String) : Likeness.flattening.names name := trivial

theorem Likeness.same_flattening (body : Program) : Likeness.flattening.bodies body body := Or.inl rfl

theorem Program.Matches.ne_nil {likeness : Likeness} {stmts other : List Stmt}
    (trees : Program.Matches likeness stmts other) (nonempty : stmts ≠ []) : other ≠ [] := by
  cases trees with
  | nil => exact nonempty
  | cons => exact List.cons_ne_nil _ _
  | splice _ bodyNonempty => exact List.append_ne_nil_of_left_ne_nil bodyNonempty _

mutual

theorem Expr.matches_flatten : ∀ expr : Expr, expr.Matches .flattening expr.flatten
  | .ident _ => .ident trivial
  | .int value => .int value
  | .bool value => .bool value
  | .str text => .str text
  | .unary op operand => .unary op operand.matches_flatten
  | .binary left op right => .binary op left.matches_flatten right.matches_flatten
  | .ifThen condition consequence =>
      .ifThen condition.matches_flatten (Program.matches_flatten consequence)
  | .ifElse condition consequence alternative =>
      .ifElse condition.matches_flatten (Program.matches_flatten consequence)
        (Program.matches_flatten alternative)
  | .fn params _ => .fn params (.inr rfl)
  | .call callee args => .call callee.matches_flatten (Expr.allMatch_flatten args)
termination_by structural expr => expr

theorem Expr.allMatch_flatten :
    ∀ args : List Expr, Expr.AllMatch .flattening args (Expr.flattenAll args)
  | [] => .nil
  | arg :: rest => .cons arg.matches_flatten (Expr.allMatch_flatten rest)
termination_by structural args => args

theorem Stmt.matches_flatten : ∀ (stmt : Stmt) {rest other : List Stmt},
    Program.Matches .flattening rest other →
      Program.Matches .flattening (stmt :: rest) (stmt.flatten ++ other)
  | .letBe name value, _, _, others => .cons (.letBe name value.matches_flatten) others
  | .ret value, _, _, others => .cons (.ret value.matches_flatten) others
  | .expr value, _, _, others => .cons (.expr value.matches_flatten) others
  | .block [], _, _, others => .cons (.block .nil) others
  | .block (stmt :: rest), _, _, others => by
      have bodies := Program.matches_flatten (stmt :: rest)
      exact .splice bodies (bodies.ne_nil (List.cons_ne_nil _ _)) others
termination_by structural stmt => stmt

theorem Program.matches_flatten :
    ∀ stmts : List Stmt, Program.Matches .flattening stmts (Program.flatten stmts)
  | [] => .nil
  | stmt :: rest => stmt.matches_flatten (Program.matches_flatten rest)
termination_by structural stmts => stmts

end

theorem Likeness.sound_flattening : Likeness.flattening.Sound := by
  intro call otherCall calls body otherBody bodies pairing machine other alike
  rcases bodies with same | flat
  · rw [same]
    have covered := Program.covered (fun body _ => Likeness.same_flattening body) body
      fun name _ => Likeness.seen_flattening name
    exact (Program.matches_self covered).agree calls .null alike
  · rw [flat]
    exact (Program.matches_flatten body).agree calls .null alike

/-- From a store on, two evaluations have ended with values that nobody can tell apart. So are those
that names are bound to in the environments of that store, and the lines in the trace are the same. -/
structure SameEnding (store : Store) (ended other : Value × Store) : Prop where
  value : ended.1.Resembles ended.2 other.2 other.1
  bindings : ∀ env < store.scopes.size, ∀ name,
    Option.Rel (fun value otherValue => value.Resembles ended.2 other.2 otherValue)
      (ended.2.bound? env name) (other.2.bound? env name)
  trace : store.SameTrace store ended.2 other.2

/-- With the statements of its blocks in place of the blocks, a program ends whenever it ends as it is,
and the other way round, and with nothing in sight that is different. -/
theorem Program.eval_flatten {store : Store} (reached : store.Reached) {env : Env}
    (existing : env < store.scopes.size) (program : Program) (fuel : Nat) :
    Option.Rel (SameEnding store) (Program.eval fuel env program store)
      (Program.eval fuel env (Program.flatten program) store) := by
  have stores : store.Alike .flattening store.diagonal store :=
    reached.closed.alike_self Likeness.same_flattening
  have alike : Machine.Alike .flattening store.diagonal ⟨env, store⟩ ⟨env, store⟩ :=
    ⟨⟨rfl, existing⟩, stores⟩
  have related := (Program.matches_flatten program).eval Likeness.sound_flattening alike fuel
  apply related.mono
  rintro ended other ⟨larger, within, valueAlike, later, trace⟩
  refine ⟨valueAlike.resembles later, ?_, trace⟩
  intro scope scopeExists name
  have bound := later.bound? (within.envs ⟨rfl, scopeExists⟩) (Likeness.seen_flattening name)
  apply bound.mono
  intro value otherValue boundAlike
  exact boundAlike.resembles later

/-- A return from inside of two blocks of a function, which is called in a block and bound there. -/
theorem eval_flatten_of_return :
    ∃ ended flat,
      Program.eval 1 0 [.block [.letBe "f" (.fn ["x"]
        [.block [.block [.ret (.ident "x")], .expr (.int 1)]]),
        .expr (.call (.ident "f") [.str "a"])]] Session.start.store = some ended ∧
      Program.eval 1 0 [.letBe "f" (.fn ["x"] [.ret (.ident "x"), .expr (.int 1)]),
        .expr (.call (.ident "f") [.str "a"])] Session.start.store = some flat ∧
      ended.1 = .str 1 "a" ∧ SameEnding Session.start.store ended flat := by
  have reached : Session.start.store.Reached := .found (.program .start 1 [])
  have existing : 0 < Session.start.store.scopes.size := Nat.zero_lt_one
  have related := Program.eval_flatten reached existing
    [.block [.letBe "f" (.fn ["x"] [.block [.block [.ret (.ident "x")], .expr (.int 1)]]),
      .expr (.call (.ident "f") [.str "a"])]] 1
  rcases related with @⟨ended, flat, same⟩
  exact ⟨_, _, rfl, rfl, rfl, same⟩

end Monkey
