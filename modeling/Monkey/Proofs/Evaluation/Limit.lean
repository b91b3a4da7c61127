import Monkey.Evaluation.Basic

/-!
# The limit on open calls

How many calls may be open at a time decides only whether an evaluation has a result. With a higher
limit, an evaluation that has one has the same.
-/

namespace Monkey

/-- Where the first run ends, the second one ends in the same way. -/
def Run.Within (first second : Run) : Prop :=
  ∀ ⦃machine result⦄, first machine = some result → second machine = some result

namespace Run.Within

theorem refl (run : Run) : run.Within run := fun _ _ ends => ends

theorem thenPlain {first second : Run} {next later : Value → Run} (within : first.Within second)
    (nextWithin : ∀ value, (next value).Within (later value)) :
    (first.thenPlain next).Within (second.thenPlain later) := by
  intro machine result ends
  simp only [Run.thenPlain] at ends ⊢
  cases ran : first machine with
  | none =>
      rw [ran] at ends
      cases ends
  | some reached =>
      rcases reached with ⟨value, after⟩
      rw [ran] at ends
      rw [within ran]
      simp only at ends ⊢
      split at ends
      · rename_i carrier
        rwa [if_pos carrier]
      · rename_i plain
        rw [if_neg plain]
        exact nextWithin value ends

end Run.Within

section

variable {call higher : Value → List Value → Run}

mutual

theorem Expr.eval_within (calls : ∀ callee args, (call callee args).Within (higher callee args)) :
    ∀ expr : Expr, (expr.eval call).Within (expr.eval higher)
  | .ident _ | .int _ | .bool _ | .str _ | .fn _ _ => .refl _
  | .unary _ operand => (operand.eval_within calls).thenPlain fun _ => .refl _
  | .binary left _ right =>
      (left.eval_within calls).thenPlain fun _ =>
        (right.eval_within calls).thenPlain fun _ => .refl _
  | .ifThen condition consequence => by
      refine (condition.eval_within calls).thenPlain fun value => ?_
      split
      · exact Program.evalFrom_within calls consequence _
      · exact .refl _
  | .ifElse condition consequence alternative => by
      refine (condition.eval_within calls).thenPlain fun value => ?_
      split
      · exact Program.evalFrom_within calls consequence _
      · exact Program.evalFrom_within calls alternative _
  | .call callee args =>
      (callee.eval_within calls).thenPlain fun value =>
        Expr.evalAll_within calls args (calls value)
termination_by structural expr => expr

theorem Expr.evalAll_within
    (calls : ∀ callee args, (call callee args).Within (higher callee args)) :
    ∀ (args : List Expr) {next later : List Value → Run},
      (∀ values, (next values).Within (later values)) →
        (Expr.evalAll call next args).Within (Expr.evalAll higher later args)
  | [], _, _, nextWithin => nextWithin []
  | arg :: rest, _, _, nextWithin =>
      (arg.eval_within calls).thenPlain fun value =>
        Expr.evalAll_within calls rest fun values => nextWithin (value :: values)
termination_by structural args => args

theorem Stmt.eval_within (calls : ∀ callee args, (call callee args).Within (higher callee args)) :
    ∀ stmt : Stmt, (stmt.eval call).Within (stmt.eval higher)
  | .letBe _ value | .ret value => (value.eval_within calls).thenPlain fun _ => .refl _
  | .expr value => value.eval_within calls
  | .block body => Program.evalFrom_within calls body _
termination_by structural stmt => stmt

theorem Program.evalFrom_within
    (calls : ∀ callee args, (call callee args).Within (higher callee args)) :
    ∀ (stmts : List Stmt) (last : Value),
      (Program.evalFrom call last stmts).Within (Program.evalFrom higher last stmts)
  | [], _ => .refl _
  | stmt :: rest, _ =>
      (stmt.eval_within calls).thenPlain fun value => Program.evalFrom_within calls rest value
termination_by structural stmts => stmts

end

end

/-- An application that ends ends in the same way if more calls may be open. -/
theorem Value.apply_within {fuel limit : Nat} (le : fuel ≤ limit) :
    ∀ callee args, (Value.apply fuel callee args).Within (Value.apply limit callee args) := by
  induction fuel generalizing limit with
  | zero =>
      intro callee args machine result ends
      cases ends
  | succ fuel ih =>
      rcases limit with _ | limit
      · cases le
      · intro callee args machine result ends
        simp only [Value.apply, Option.map_eq_some_iff] at ends ⊢
        rcases ends with ⟨reached, invoked, answered⟩
        refine ⟨reached, ?_, answered⟩
        cases callee with
        | fn identity params body env =>
            simp only [Value.invoke] at invoked ⊢
            split at invoked
            · rename_i sameLength
              rw [if_pos sameLength]
              rcases Option.map_eq_some_iff.mp invoked with ⟨last, ran, left⟩
              have calls := ih (Nat.le_of_succ_le_succ le)
              exact Option.map_eq_some_iff.mpr
                ⟨last, Program.evalFrom_within calls body .null ran, left⟩
            · rename_i otherLength
              rwa [if_neg otherLength]
        | _ => exact invoked

theorem Program.eval_mono {fuel limit : Nat} (le : fuel ≤ limit) {env : Env} {program : Program}
    {store later : Store} {value : Value} (ends : program.eval fuel env store = some (value, later)) :
    program.eval limit env store = some (value, later) := by
  rcases eval_eq_some_iff.mp ends with ⟨result, last, evaluated, answered⟩
  have same := evalFrom_within (Value.apply_within le) program .null evaluated
  exact eval_eq_some_iff.mpr ⟨result, last, same, answered⟩

end Monkey
