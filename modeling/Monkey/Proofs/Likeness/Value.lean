import Mathlib.Data.List.Forall2
import Mathlib.Logic.Relator
import Monkey.Proofs.Evaluation.Contract

/-!
# Values that are alike

Two evaluations of the same program may number their objects and environments differently. Which
numbers stand for each other is kept in a pairing, in which no number occurs twice on a side. Values
are alike up to these numbers, and then no operation tells them apart: even the test for being the
same only asks whether two numbers are equal.
-/

namespace Monkey

/-- What may differ between two evaluations, apart from numbers. -/
structure Likeness where
  /-- The names that have to be bound alike. -/
  names : String → Prop
  /-- The bodies of functions that can stand for each other. -/
  bodies : Program → Program → Prop
  /-- These have the same text. -/
  text : ∀ {body other : Program}, bodies body other → Program.text body = Program.text other

/-- Nothing differs but numbers. -/
def Likeness.full : Likeness where
  names _ := True
  bodies body other := body = other
  text same := by rw [same]

/-- Pairs of numbers, and one more pair. -/
def withPair (pairs : Nat → Nat → Prop) (next otherNext : Nat) : Nat → Nat → Prop :=
  fun number other => pairs number other ∨ number = next ∧ other = otherNext

/-- The numbers in the pairs are below the next ones, and each belongs to one other only. -/
structure Numbering (next otherNext : Nat) (pairs : Nat → Nat → Prop) : Prop where
  below : ∀ {number other : Nat}, pairs number other → number < next ∧ other < otherNext
  unique : Relator.BiUnique pairs

namespace Numbering

variable {next otherNext : Nat} {pairs : Nat → Nat → Prop}

theorem mono (numbering : Numbering next otherNext pairs) {later otherLater : Nat}
    (le : next ≤ later) (otherLe : otherNext ≤ otherLater) : Numbering later otherLater pairs := by
  refine ⟨fun paired => ?_, numbering.unique⟩
  have below := numbering.below paired
  exact ⟨Nat.lt_of_lt_of_le below.1 le, Nat.lt_of_lt_of_le below.2 otherLe⟩

theorem withPair (numbering : Numbering next otherNext pairs) :
    Numbering (next + 1) (otherNext + 1) (withPair pairs next otherNext) := by
  refine ⟨fun paired => ?_, fun _ _ _ first second => ?_, fun _ _ _ first second => ?_⟩
  · rcases paired with paired | ⟨rfl, rfl⟩
    · have below := numbering.below paired
      omega
    · omega
  · rcases first with first | ⟨rfl, rfl⟩ <;> rcases second with second | ⟨rfl, same⟩
    · exact numbering.unique.1 first second
    · exact absurd (same ▸ numbering.below first).2 (Nat.lt_irrefl _)
    · exact absurd (numbering.below second).2 (Nat.lt_irrefl _)
    · rfl
  · rcases first with first | ⟨rfl, rfl⟩ <;> rcases second with second | ⟨same, rfl⟩
    · exact numbering.unique.2 first second
    · exact absurd (same ▸ numbering.below first).1 (Nat.lt_irrefl _)
    · exact absurd (numbering.below second).1 (Nat.lt_irrefl _)
    · rfl

end Numbering

/-- Which objects and which environments stand for each other. -/
structure Pairing where
  ids : Nat → Nat → Prop
  envs : Env → Env → Prop

structure Pairing.Within (pairing larger : Pairing) : Prop where
  ids : ∀ {identity other : Nat}, pairing.ids identity other → larger.ids identity other
  envs : ∀ {env other : Env}, pairing.envs env other → larger.envs env other

theorem Pairing.Within.refl (pairing : Pairing) : pairing.Within pairing := ⟨id, id⟩

theorem Pairing.Within.trans {first second third : Pairing} (earlier : first.Within second)
    (next : second.Within third) : first.Within third :=
  ⟨fun paired => next.ids (earlier.ids paired), fun paired => next.envs (earlier.envs paired)⟩

section

variable (likeness : Likeness) (pairing : Pairing)

/-- Two values are the same up to the numbers of objects and environments. -/
inductive Value.Alike : Value → Value → Prop where
  | int (value : Int) : Alike (.int value) (.int value)
  | bool (value : Bool) : Alike (.bool value) (.bool value)
  | null : Alike .null .null
  | str {identity other : Nat} (text : String) (ids : pairing.ids identity other) :
      Alike (.str identity text) (.str other text)
  | fn {identity other : Nat} {params : List String} {body otherBody : Program} {env otherEnv : Env}
      (ids : pairing.ids identity other) (bodies : likeness.bodies body otherBody)
      (envs : pairing.envs env otherEnv) :
      Alike (.fn identity params body env) (.fn other params otherBody otherEnv)
  | builtin {identity other : Nat} (callee : Builtin) (ids : pairing.ids identity other) :
      Alike (.builtin identity callee) (.builtin other callee)
  | returned {value other : Value} (alike : Alike value other) :
      Alike (.returned value) (.returned other)
  | error (fault : Fault) : Alike (.error fault) (.error fault)

/-- Like values, or the same fault. -/
inductive Answer.Alike : Except Fault Value → Except Fault Value → Prop where
  | ok {value other : Value} (alike : value.Alike likeness pairing other) :
      Alike (.ok value) (.ok other)
  | error (fault : Fault) : Alike (.error fault) (.error fault)

end

variable {likeness : Likeness} {pairing : Pairing}

namespace Value.Alike

variable {value other : Value}

theorem mono {larger : Pairing} (alike : value.Alike likeness pairing other)
    (within : pairing.Within larger) : value.Alike likeness larger other := by
  induction alike with
  | int value => exact .int value
  | bool value => exact .bool value
  | null => exact .null
  | str text ids => exact .str text (within.ids ids)
  | fn ids bodies envs => exact .fn (within.ids ids) bodies (within.envs envs)
  | builtin callee ids => exact .builtin callee (within.ids ids)
  | returned _ ih => exact .returned ih
  | error fault => exact .error fault

theorem typeName_eq (alike : value.Alike likeness pairing other) :
    value.typeName = other.typeName := by
  cases alike <;> rfl

theorem isCarrier_eq (alike : value.Alike likeness pairing other) :
    value.isCarrier = other.isCarrier := by
  cases alike <;> rfl

theorem isTruthy_eq (alike : value.Alike likeness pairing other) :
    value.isTruthy = other.isTruthy := by
  cases alike <;> rfl

theorem arrived (alike : value.Alike likeness pairing other) :
    value.arrived.Alike likeness pairing other.arrived := by
  cases alike with
  | returned alike => exact alike
  | int | bool | null | str | fn | builtin | error => constructor <;> assumption

theorem text_eq (alike : value.Alike likeness pairing other) : value.text = other.text := by
  induction alike with
  | fn _ bodies =>
      unfold text
      rw [likeness.text bodies]
  | returned _ ih => exact ih
  | _ => rfl

theorem code_eq (alike : value.Alike likeness pairing other) : value.code = other.code := by
  have text := alike.text_eq
  cases alike with
  | str => rfl
  | _ => exact text

theorem same_eq {right otherRight : Value} (unique : Relator.BiUnique pairing.ids)
    (alike : value.Alike likeness pairing other)
    (rightAlike : right.Alike likeness pairing otherRight) :
    value.same right = other.same otherRight := by
  cases alike with
  | str _ ids =>
      cases rightAlike with
      | str _ rightIds => exact decide_eq_decide.mpr (Relator.rel_eq unique ids rightIds)
      | _ => rfl
  | fn ids =>
      cases rightAlike with
      | fn rightIds => exact decide_eq_decide.mpr (Relator.rel_eq unique ids rightIds)
      | _ => rfl
  | builtin _ ids =>
      cases rightAlike with
      | builtin _ rightIds => exact decide_eq_decide.mpr (Relator.rel_eq unique ids rightIds)
      | _ => rfl
  | _ => cases rightAlike <;> rfl

end Value.Alike

/-! ### Operations on like values -/

theorem UnaryOp.apply_alike (op : UnaryOp) {value other : Value}
    (alike : value.Alike likeness pairing other) :
    Answer.Alike likeness pairing (op.apply value) (op.apply other) := by
  cases op with
  | not =>
      rw [UnaryOp.apply, UnaryOp.apply, alike.isTruthy_eq]
      exact .ok (.bool _)
  | negate =>
      cases alike with
      | int value =>
          simp only [UnaryOp.apply]
          split
          · exact .ok (.int _)
          · exact .error _
      | _ => exact .error _

theorem BinaryOp.apply_equal (fresh : Nat) (left right : Value) :
    BinaryOp.apply fresh .equal left right = .ok (.bool (left.same right)) := by
  cases left <;> cases right <;> rfl

theorem BinaryOp.apply_notEqual (fresh : Nat) (left right : Value) :
    BinaryOp.apply fresh .notEqual left right = .ok (.bool !left.same right) := by
  cases left <;> cases right <;> first | rfl | simp [BinaryOp.apply, BinaryOp.applyInt, Value.same]

theorem BinaryOp.applyInt_alike (op : BinaryOp) (left right : Int) :
    Answer.Alike likeness pairing (op.applyInt left right) (op.applyInt left right) := by
  have bounded : ∀ result : Int, Answer.Alike likeness pairing (op.inBounds left right result)
      (op.inBounds left right result) := by
    intro result
    rw [BinaryOp.inBounds]
    split
    · exact .ok (.int _)
    · exact .error _
  cases op with
  | add | subtract | multiply => exact bounded _
  | divide =>
      rw [BinaryOp.applyInt]
      split
      · exact .error _
      · exact bounded _
  | less | greater | equal | notEqual => exact .ok (.bool _)

/-- Where two integers cannot be combined nor two strings joined, the types alone decide. -/
theorem BinaryOp.apply_of_typeName {fresh : Nat} {op : BinaryOp} {left right : Value}
    (notEqual : op ≠ .equal ∧ op ≠ .notEqual)
    (noIntegers : ¬ (left.typeName = .integer ∧ right.typeName = .integer))
    (noStrings : ¬ (left.typeName = .string ∧ op = .add ∧ right.typeName = .string)) :
    BinaryOp.apply fresh op left right =
      if left.typeName = right.typeName then
        .error (.unknownBinary left.typeName op right.typeName)
      else .error (.typeMismatch left.typeName op right.typeName) := by
  unfold BinaryOp.apply
  split <;> simp_all [Value.typeName]

theorem BinaryOp.apply_alike (op : BinaryOp) {fresh otherFresh : Nat}
    {left other right otherRight : Value} (unique : Relator.BiUnique pairing.ids)
    (ids : pairing.ids fresh otherFresh) (leftAlike : left.Alike likeness pairing other)
    (rightAlike : right.Alike likeness pairing otherRight) :
    Answer.Alike likeness pairing (op.apply fresh left right)
      (op.apply otherFresh other otherRight) := by
  by_cases equal : op = .equal
  · rw [equal, apply_equal, apply_equal, leftAlike.same_eq unique rightAlike]
    exact .ok (.bool _)
  by_cases notEqual : op = .notEqual
  · rw [notEqual, apply_notEqual, apply_notEqual, leftAlike.same_eq unique rightAlike]
    exact .ok (.bool _)
  by_cases integers : left.typeName = .integer ∧ right.typeName = .integer
  · cases leftAlike with
    | int leftValue =>
        cases rightAlike with
        | int rightValue => exact op.applyInt_alike leftValue rightValue
        | _ => cases integers.2
    | _ => cases integers.1
  by_cases strings : left.typeName = .string ∧ op = .add ∧ right.typeName = .string
  · rcases strings with ⟨leftString, rfl, rightString⟩
    cases leftAlike with
    | str leftText _ =>
        cases rightAlike with
        | str rightText _ => exact .ok (.str _ ids)
        | _ => cases rightString
    | _ => cases leftString
  rw [apply_of_typeName ⟨equal, notEqual⟩ integers strings]
  rw [leftAlike.typeName_eq, rightAlike.typeName_eq] at integers strings ⊢
  rw [apply_of_typeName ⟨equal, notEqual⟩ integers strings]
  split <;> exact .error _

theorem Builtin.apply_alike (builtin : Builtin) {fresh otherFresh : Nat}
    {args otherArgs : List Value} (ids : pairing.ids fresh otherFresh)
    (argsAlike : List.Forall₂ (Value.Alike likeness pairing) args otherArgs) :
    Answer.Alike likeness pairing (builtin.apply fresh args)
      (builtin.apply otherFresh otherArgs) := by
  rcases argsAlike with _ | ⟨argAlike, _ | ⟨secondAlike, restAlike⟩⟩
  · cases builtin <;> exact .error _
  · cases builtin with
    | length =>
        cases argAlike with
        | str text _ => exact .ok (.int _)
        | _ => exact .error _
    | typeOf =>
        simp only [Builtin.apply, argAlike.typeName_eq]
        exact .ok (.str _ ids)
  · have sameLength := restAlike.length_eq
    cases builtin <;> simpa [Builtin.apply, sameLength] using .error _

end Monkey
