import Monkey.Evaluation.Basic
import Monkey.Proofs.Store.Basic

/-!
# Statements that follow each other

A sequence of statements can be cut anywhere: the second part is evaluated if the first one gives no
carrier, and where that one has got. So it does not matter whether statements that follow each other
stand in a block of their own.
-/

namespace Monkey

namespace Run

theorem thenPlain_congr (first : Run) {next other : Value → Run}
    (same : ∀ value, value.isCarrier = false → next value = other value) :
    first.thenPlain next = first.thenPlain other := by
  funext machine
  simp only [thenPlain]
  split
  · rfl
  · rename_i value later ran
    cases carrier : value.isCarrier with
    | true => rfl
    | false => exact congrFun (same value carrier) later

theorem thenPlain_assoc (first : Run) (next last : Value → Run) :
    (first.thenPlain next).thenPlain last =
      first.thenPlain fun value => (next value).thenPlain last := by
  funext machine
  cases ran : first machine with
  | none => simp [thenPlain, ran]
  | some ended =>
      cases carrier : ended.1.isCarrier with
      | true =>
          have cut : first.thenPlain next machine = some ended := thenPlain_of_carrier ran carrier
          rw [thenPlain_of_carrier cut carrier, thenPlain_of_carrier ran carrier]
      | false =>
          rw [thenPlain_of_plain ran carrier]
          simp only [thenPlain, ran, carrier]
          rfl

end Run

namespace Program

variable {call : Value → List Value → Run}

theorem evalFrom_append (first second : Program) {last : Value} (plain : last.isCarrier = false) :
    evalFrom call last (first ++ second) =
      (evalFrom call last first).thenPlain fun value => evalFrom call value second := by
  induction first generalizing last with
  | nil =>
      funext machine
      have ends : evalFrom call last [] machine = some (last, machine) := rfl
      rw [Run.thenPlain_of_plain ends plain]
      rfl
  | cons stmt rest ih =>
      rw [List.cons_append, evalFrom, evalFrom, Run.thenPlain_assoc]
      exact Run.thenPlain_congr _ fun value valuePlain => ih valuePlain

/-- What comes before statements has no influence on their value, if there are any. -/
theorem evalFrom_eq_of_ne_nil {program : Program} (nonempty : program ≠ []) (last : Value) :
    evalFrom call last program = evalFrom call .null program := by
  cases program with
  | nil => exact absurd rfl nonempty
  | cons stmt rest => rfl

/-- Statements that follow each other can be put into a block. -/
theorem evalFrom_block {body : Program} (nonempty : body ≠ []) (rest : Program) (last : Value) :
    evalFrom call last (.block body :: rest) = evalFrom call last (body ++ rest) := by
  have wholeNonempty : body ++ rest ≠ [] := List.append_ne_nil_of_left_ne_nil nonempty rest
  rw [evalFrom_eq_of_ne_nil wholeNonempty, evalFrom_append body rest rfl]
  rfl

end Program

end Monkey
