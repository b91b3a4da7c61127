import Monkey.Value.Basic

/-!
# Operations on values

An operation on plain values gives a plain value or a fault. Where it makes a new object, that
object gets the identity `fresh`.
-/

namespace Monkey

/-- Applies a unary operator. Every value can be denied; only an integer can be negated. -/
def UnaryOp.apply (op : UnaryOp) (operand : Value) : Except Fault Value :=
  match op, operand with
  | .not, operand => .ok (.bool !operand.isTruthy)
  | .negate, .int value =>
    if inRange (-value) then .ok (.int (-value)) else .error (.negationOverflow value)
  | .negate, operand => .error (.unknownUnary .negate operand.typeName)

namespace BinaryOp

/-- An integer that is the result of an operation, unless it is out of range. -/
def inBounds (left : Int) (op : BinaryOp) (right : Int) (result : Int) : Except Fault Value :=
  if inRange result then .ok (.int result) else .error (.integerOverflow left op right)

/-- Applies a binary operator to two integers; division rounds towards zero. -/
def applyInt (op : BinaryOp) (left right : Int) : Except Fault Value :=
  match op with
  | add => inBounds left op right (left + right)
  | subtract => inBounds left op right (left - right)
  | multiply => inBounds left op right (left * right)
  | divide =>
    if right = 0 then .error .divisionByZero else inBounds left op right (left.tdiv right)
  | less => .ok (.bool (left < right))
  | greater => .ok (.bool (left > right))
  | equal => .ok (.bool (left = right))
  | notEqual => .ok (.bool (left ≠ right))

/-- Applies a binary operator. Two integers can be combined by every operator, two strings can be
joined, and any two values can be tested for being the same. -/
def apply (fresh : Nat) (op : BinaryOp) (left right : Value) : Except Fault Value :=
  match left, op, right with
  | .int left, op, .int right => op.applyInt left right
  | .str _ left, add, .str _ right => .ok (.str fresh (left ++ right))
  | left, equal, right => .ok (.bool (left.same right))
  | left, notEqual, right => .ok (.bool !left.same right)
  | left, op, right =>
    if left.typeName = right.typeName then
      .error (.unknownBinary left.typeName op right.typeName)
    else .error (.typeMismatch left.typeName op right.typeName)

end BinaryOp

/-- Applies a builtin function; both take one argument. -/
def Builtin.apply (fresh : Nat) (builtin : Builtin) (args : List Value) : Except Fault Value :=
  match builtin, args with
  | .length, [.str _ text] => .ok (.int text.length)
  | .length, [value] => .error (.unsupportedArgument .length value.typeName)
  | .typeOf, [value] => .ok (.str fresh value.typeName.text)
  | _, args => .error (.wrongArgumentCount args.length 1)

end Monkey
