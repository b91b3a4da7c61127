import Monkey.Evaluation.Basic

/-!
# What operations make

An operation makes a plain value of plain values. If what it makes has an identity, that is a fresh
one, and if it is a string, its text comes from the operands or names a type.
-/

namespace Monkey

/-- The plain values without an identity. -/
inductive Value.Atomic : Value → Prop where
  | int (value : Int) : Atomic (.int value)
  | bool (value : Bool) : Atomic (.bool value)
  | null : Atomic .null

/-- The plain values that operations make. Only strings and builtin functions have an identity,
and it is a fresh one. -/
inductive Value.Made (fresh : Nat) : Value → Prop where
  | atomic {value : Value} (atomic : value.Atomic) : Made fresh value
  | str (text : String) : Made fresh (.str fresh text)
  | builtin (callee : Builtin) : Made fresh (.builtin fresh callee)

/-- The plain values that operations make of some operands. -/
inductive Value.MadeOf (operands : List Value) (fresh : Nat) : Value → Prop where
  | atomic {value : Value} (atomic : value.Atomic) : MadeOf operands fresh value
  | joined {first second : Nat} {left right : String} (leftMember : .str first left ∈ operands)
      (rightMember : .str second right ∈ operands) :
      MadeOf operands fresh (.str fresh (left ++ right))
  | typeText (name : TypeName) : MadeOf operands fresh (.str fresh name.text)
  | builtin (callee : Builtin) : MadeOf operands fresh (.builtin fresh callee)

theorem Value.MadeOf.made {operands : List Value} {fresh : Nat} {value : Value}
    (madeOf : value.MadeOf operands fresh) : value.Made fresh := by
  cases madeOf with
  | atomic atomic => exact .atomic atomic
  | joined | typeText => exact .str _
  | builtin callee => exact .builtin callee

/-- If anything is made, it is made of the operands. -/
def Makes (operands : List Value) (make : Nat → Except Fault Value) : Prop :=
  ∀ fresh value, make fresh = .ok value → value.MadeOf operands fresh

theorem UnaryOp.atomic_of_apply {op : UnaryOp} {operand value : Value}
    (made : op.apply operand = .ok value) : value.Atomic := by
  simp only [UnaryOp.apply] at made
  split at made
  · cases made
    exact .bool _
  · split at made <;> cases made
    exact .int _
  · cases made

theorem UnaryOp.makes_apply (op : UnaryOp) (operand : Value) :
    Makes [operand] fun _ => op.apply operand := by
  intro fresh value made
  exact .atomic (atomic_of_apply made)

theorem BinaryOp.atomic_of_applyInt {op : BinaryOp} {left right : Int} {value : Value}
    (made : op.applyInt left right = .ok value) : value.Atomic := by
  have bounded : ∀ {result : Int}, op.inBounds left right result = .ok value → value.Atomic := by
    intro result made
    simp only [BinaryOp.inBounds] at made
    split at made <;> cases made
    exact .int _
  cases op with
  | add => exact bounded made
  | subtract => exact bounded made
  | multiply => exact bounded made
  | divide =>
      simp only [BinaryOp.applyInt] at made
      split at made
      · cases made
      · exact bounded made
  | less | greater | equal | notEqual =>
      cases made
      exact .bool _

/-- The only operation that makes an object joins two strings. -/
theorem BinaryOp.cases_of_apply {op : BinaryOp} {fresh : Nat} {left right value : Value}
    (made : op.apply fresh left right = .ok value) :
    value.Atomic ∨ ∃ leftIdentity leftText rightIdentity rightText,
      left = .str leftIdentity leftText ∧ op = .add ∧ right = .str rightIdentity rightText ∧
        value = .str fresh (leftText ++ rightText) := by
  simp only [BinaryOp.apply] at made
  split at made
  · exact .inl (atomic_of_applyInt made)
  · cases made
    exact .inr ⟨_, _, _, _, rfl, rfl, rfl, rfl⟩
  · cases made
    exact .inl (.bool _)
  · cases made
    exact .inl (.bool _)
  · split at made <;> cases made

theorem BinaryOp.makes_apply (op : BinaryOp) (left right : Value) :
    Makes [left, right] fun fresh => op.apply fresh left right := by
  intro fresh value made
  rcases cases_of_apply made with atomic | ⟨_, _, _, _, rfl, -, rfl, rfl⟩
  · exact .atomic atomic
  · exact .joined List.mem_cons_self (List.mem_cons_of_mem _ List.mem_cons_self)

/-- The only builtin function that makes an object names the type of its argument. -/
theorem Builtin.cases_of_apply {builtin : Builtin} {fresh : Nat} {args : List Value} {value : Value}
    (made : builtin.apply fresh args = .ok value) :
    value.Atomic ∨ ∃ arg, builtin = .typeOf ∧ args = [arg] ∧ value = .str fresh arg.typeName.text := by
  simp only [Builtin.apply] at made
  split at made <;> cases made
  · exact .inl (.int _)
  · exact .inr ⟨_, rfl, rfl, rfl⟩

theorem Builtin.makes_apply (builtin : Builtin) (args : List Value) :
    Makes args fun fresh => builtin.apply fresh args := by
  intro fresh value made
  rcases cases_of_apply made with atomic | ⟨arg, -, -, rfl⟩
  · exact .atomic atomic
  · exact .typeText _

theorem Builtin.makes_ofName? (name : String) :
    Makes [] fun fresh =>
      match Builtin.ofName? name with
      | some builtin => .ok (.builtin fresh builtin)
      | none => .error (.unboundName name) := by
  intro fresh value made
  simp only at made
  split at made <;> cases made
  exact .builtin _

theorem makes_error (operands : List Value) (fault : Fault) :
    Makes operands fun _ => .error fault := by
  intro fresh value made
  cases made

/-- The next identity has been handed out. -/
def Machine.issue (machine : Machine) : Machine :=
  { machine with store := { machine.store with fresh := machine.store.fresh + 1 } }

/-- A run that makes a value either makes it or logs a fault. -/
theorem Run.answer_cases {operands : List Value} {make : Nat → Except Fault Value}
    (makes : Makes operands make) {machine later : Machine} {value : Value}
    (ends : Run.answer make machine = some (value, later)) :
    value.MadeOf operands machine.store.fresh ∧ later = machine.issue ∨
      ∃ fault, value = .error fault ∧ later = machine.record (.failed fault) := by
  simp only [Run.answer, Store.answer] at ends
  split at ends
  · rename_i made
    cases ends
    exact .inl ⟨makes _ _ made, rfl⟩
  · rename_i fault _
    cases ends
    exact .inr ⟨fault, rfl, rfl⟩

end Monkey
