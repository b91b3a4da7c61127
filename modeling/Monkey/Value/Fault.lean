import Monkey.Program.Operator
import Monkey.Text.Numeral
import Monkey.Value.Builtin
import Monkey.Value.TypeName

/-!
# Faults

A fault is the reason why an evaluation has no plain result. It records the operands that are to
blame, by their type names, or by their values where two integers leave the range.
-/

namespace Monkey

/-- Why an evaluation failed. -/
inductive Fault where
  /-- A unary operator does not apply to its operand. -/
  | unknownUnary (op : UnaryOp) (operand : TypeName)
  /-- A binary operator does not apply to two operands of one type. -/
  | unknownBinary (left : TypeName) (op : BinaryOp) (right : TypeName)
  /-- A binary operator does not apply to operands of different types. -/
  | typeMismatch (left : TypeName) (op : BinaryOp) (right : TypeName)
  /-- A name is bound in no scope and is no builtin function. -/
  | unboundName (name : String)
  /-- Something that cannot be called was called. -/
  | notFunction (got : TypeName)
  /-- A function was given too few or too many arguments. -/
  | wrongArgumentCount (got want : Nat)
  /-- A builtin function was given an argument of the wrong type. -/
  | unsupportedArgument (builtin : Builtin) (got : TypeName)
  /-- An integer was divided by zero. -/
  | divisionByZero
  /-- The result of an operation on two integers is out of range. -/
  | integerOverflow (left : Int) (op : BinaryOp) (right : Int)
  /-- The negation of an integer is out of range. -/
  | negationOverflow (value : Int)
deriving DecidableEq

/-- What a fault says. -/
def Fault.message : Fault → String
  | unknownUnary op operand => "unknown operator: " ++ op.text ++ operand.text
  | unknownBinary left op right =>
    "unknown operator: " ++ left.text ++ " " ++ op.text ++ " " ++ right.text
  | typeMismatch left op right =>
    "type mismatch: " ++ left.text ++ " " ++ op.text ++ " " ++ right.text
  | unboundName name => "identifier not found: " ++ name
  | notFunction got => "not a function: " ++ got.text
  | wrongArgumentCount got want =>
    "wrong number of arguments. got=" ++ toString got ++ ", want=" ++ toString want
  | unsupportedArgument builtin got =>
    "argument to '" ++ builtin.name ++ "' not supported, got " ++ got.text
  | divisionByZero => "division by zero"
  | integerOverflow left op right =>
    "integer overflow: " ++ writeInteger left ++ " " ++ op.text ++ " " ++ writeInteger right
  | negationOverflow value => "integer overflow: -" ++ writeInteger value

end Monkey
