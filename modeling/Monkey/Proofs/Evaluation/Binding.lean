import Monkey.Proofs.Evaluation.History

/-!
# Evaluations that bind nothing

A program without a binding outside the bodies of its functions leaves all scopes as they are, whatever
it calls: what is bound in the body of a function is bound in a scope of its own.
-/

namespace Monkey

mutual

/-- Whether an expression has a binding, other than in the body of a function. -/
def Expr.binds : Expr → Bool
  | .ident _ | .int _ | .bool _ | .str _ | .fn _ _ => false
  | .unary _ operand => operand.binds
  | .binary left _ right => left.binds || right.binds
  | .ifThen condition consequence => condition.binds || Program.binds consequence
  | .ifElse condition consequence alternative =>
    condition.binds || Program.binds consequence || Program.binds alternative
  | .call callee args => callee.binds || Expr.anyBinds args

/-- Whether one of several expressions has such a binding. -/
def Expr.anyBinds : List Expr → Bool
  | [] => false
  | expr :: rest => expr.binds || Expr.anyBinds rest

/-- Whether a statement is or has such a binding. -/
def Stmt.binds : Stmt → Bool
  | .letBe _ _ => true
  | .ret value | .expr value => value.binds
  | .block body => Program.binds body

/-- Whether a program has such a binding. -/
def Program.binds : List Stmt → Bool
  | [] => false
  | stmt :: rest => stmt.binds || Program.binds rest

end

/-- Wherever it ends, the run has left all scopes as they were. -/
def Run.Spares (run : Run) : Prop :=
  ∀ ⦃machine value later⦄, run machine = some (value, later) → machine.store.Intact later.store

namespace Run.Spares

theorem value (value : Value) : (Run.value value).Spares := by
  rintro machine _ _ ⟨⟩
  exact .refl _

theorem answer (make : Nat → Except Fault Value) : (Run.answer make).Spares := by
  intro machine value later ends
  simp only [Run.answer, Store.answer] at ends
  split at ends
  · cases ends
    exact ⟨.issue _, fun _ _ => rfl⟩
  · cases ends
    exact ⟨.record _ _, fun _ _ => rfl⟩

theorem resolve (name : String) : (Run.resolve name).Spares := by
  intro machine value later ends
  cases found : machine.store.get? machine.env name with
  | some held =>
      rw [resolve_of_bound found] at ends
      exact Spares.value held ends
  | none =>
      rw [resolve_of_unbound found] at ends
      exact answer _ ends

theorem close (params : List String) (body : List Stmt) : (Run.close params body).Spares :=
  fun machine _ _ ends =>
    answer (fun fresh => .ok (.fn fresh params body machine.env)) ends

theorem thenPlain {first : Run} {next : Value → Run} (firstSpares : first.Spares)
    (nextSpares : ∀ value, (next value).Spares) : (first.thenPlain next).Spares := by
  intro machine result last ends
  simp only [Run.thenPlain] at ends
  split at ends
  · cases ends
  · rename_i value later ran
    split at ends
    · cases ends
      exact firstSpares ran
    · exact (firstSpares ran).trans (nextSpares value ends)

end Run.Spares

theorem Value.spares_apply (fuel : Nat) (callee : Value) (args : List Value) :
    (Value.apply fuel callee args).Spares := by
  intro machine value later ends
  have framed : Contract.frame.applied machine value later :=
    Contract.calls_apply fuel trivial trivial (fun _ _ => trivial) ends
  have later := @Task.later_of_run fuel (.apply callee args) _ _ _ ends
  exact ⟨later.grows, fun env existing => framed.2.scope env existing id⟩

section

variable {call : Value → List Value → Run}

mutual

theorem Expr.spares (calls : ∀ callee args, (call callee args).Spares) :
    ∀ expr : Expr, expr.binds = false → (expr.eval call).Spares
  | .ident name, _ => .resolve name
  | .int _, _ | .bool _, _ => .value _
  | .str _, _ => .answer _
  | .fn params body, _ => .close params body
  | .unary _ operand, unbound =>
      (operand.spares calls unbound).thenPlain fun _ => .answer _
  | .binary left _ right, unbound =>
      have unbound := Bool.or_eq_false_iff.mp unbound
      (left.spares calls unbound.1).thenPlain fun _ =>
        (right.spares calls unbound.2).thenPlain fun _ => .answer _
  | .ifThen condition consequence, unbound => by
      have unbound := Bool.or_eq_false_iff.mp unbound
      refine (condition.spares calls unbound.1).thenPlain fun value => ?_
      split
      · exact Program.spares calls consequence unbound.2 _
      · exact .value _
  | .ifElse condition consequence alternative, unbound => by
      have unbound := Bool.or_eq_false_iff.mp unbound
      have unboundBefore := Bool.or_eq_false_iff.mp unbound.1
      refine (condition.spares calls unboundBefore.1).thenPlain fun value => ?_
      split
      · exact Program.spares calls consequence unboundBefore.2 _
      · exact Program.spares calls alternative unbound.2 _
  | .call callee args, unbound =>
      have unbound := Bool.or_eq_false_iff.mp unbound
      (callee.spares calls unbound.1).thenPlain fun value =>
        Expr.spares_all calls args unbound.2 (calls value)
termination_by structural expr => expr

theorem Expr.spares_all (calls : ∀ callee args, (call callee args).Spares) :
    ∀ args : List Expr, Expr.anyBinds args = false → ∀ {next : List Value → Run},
      (∀ values, (next values).Spares) → (Expr.evalAll call next args).Spares
  | [], _, _, nextSpares => nextSpares []
  | arg :: rest, unbound, _, nextSpares =>
      have unbound := Bool.or_eq_false_iff.mp unbound
      (arg.spares calls unbound.1).thenPlain fun value =>
        Expr.spares_all calls rest unbound.2 fun values => nextSpares (value :: values)
termination_by structural args => args

theorem Stmt.spares (calls : ∀ callee args, (call callee args).Spares) :
    ∀ stmt : Stmt, stmt.binds = false → (stmt.eval call).Spares
  | .ret value, unbound => (value.spares calls unbound).thenPlain fun _ => .value _
  | .expr value, unbound => value.spares calls unbound
  | .block body, unbound => Program.spares calls body unbound _
termination_by structural stmt => stmt

theorem Program.spares (calls : ∀ callee args, (call callee args).Spares) :
    ∀ stmts : List Stmt, Program.binds stmts = false →
      ∀ last, (Program.evalFrom call last stmts).Spares
  | [], _, _ => .value _
  | stmt :: rest, unbound, _ =>
      have unbound := Bool.or_eq_false_iff.mp unbound
      (stmt.spares calls unbound.1).thenPlain fun value =>
        Program.spares calls rest unbound.2 value
termination_by structural stmts => stmts

end

end

/-- A program that binds nothing leaves all scopes as they are. -/
theorem Program.intact_of_eval {fuel : Nat} {env : Env} {program : Program} {store later : Store}
    {value : Value} (unbound : Program.binds program = false)
    (ends : program.eval fuel env store = some (value, later)) : store.Intact later := by
  rcases Program.eval_eq_some_iff.mp ends with ⟨result, last, evaluated, -, rfl⟩
  exact Program.spares (Value.spares_apply fuel) program unbound .null evaluated

end Monkey
