import Monkey.Program.Printer
import Monkey.Value.Fault

/-!
# Values

Evaluation yields values. Strings, functions and builtin functions are objects: each one that is
made gets an identity of its own, and two objects are the same only if they share it. Integers,
truth values and null are the same if they are equal.

Two further values are carriers. They do not take part in operations, but travel outwards as
they are: a returned value up to the call that it ends, and a fault out of the whole program.
-/

namespace Monkey

/-- An environment: the number of its scope. The scopes around that one are kept in the store. -/
abbrev Env := Nat

/-- The result of an evaluation. -/
inductive Value where
  | int (value : Int)
  | bool (value : Bool)
  | null
  | str (identity : Nat) (text : String)
  /-- A function, with the environment in which it was made. -/
  | fn (identity : Nat) (params : List String) (body : List Stmt) (env : Env)
  | builtin (identity : Nat) (callee : Builtin)
  /-- A value that leaves a function. -/
  | returned (value : Value)
  /-- A fault that ends the program. -/
  | error (fault : Fault)
deriving DecidableEq

namespace Value

/-- The type of a value. -/
def typeName : Value → TypeName
  | int _ => .integer
  | bool _ => .boolean
  | null => .null
  | str _ _ => .string
  | fn _ _ _ _ => .function
  | builtin _ _ => .builtin
  | returned _ => .returnValue
  | error _ => .error

/-- The text of a value. -/
def text : Value → String
  | int value => writeInteger value
  | bool value => writeBool value
  | null => "null"
  | str _ text => text
  | fn _ params body _ =>
    "fn(" ++ commaSeparated params ++ ") \x7b\n" ++ Program.text body ++ "\n\x7d"
  | builtin _ callee => "builtin function " ++ callee.name
  | returned value => value.text
  | error fault => "ERROR: " ++ fault.message

/-- The text of a value as a session shows it: a string in quotes, all else as it is. -/
def code : Value → String
  | str _ text => quoted text
  | value => value.text

/-- Whether a value is a fault. -/
def isError : Value → Bool
  | error _ => true
  | _ => false

/-- Whether a value travels outwards as it is. -/
def isCarrier : Value → Bool
  | returned _ | error _ => true
  | _ => false

/-- Whether a value counts as true: all values do but false and null. -/
def isTruthy : Value → Bool
  | bool false | null => false
  | _ => true

/-- Whether two values are the same: equal integers, equal truth values, null twice, or one object
twice. -/
def same : Value → Value → Bool
  | int left, int right => left = right
  | bool left, bool right => left = right
  | null, null => true
  | str left _, str right _ => left = right
  | fn left _ _ _, fn right _ _ _ => left = right
  | builtin left _, builtin right _ => left = right
  | _, _ => false

/-- The value that a call or a program ends with: a returned value arrives here. -/
def arrived : Value → Value
  | returned value => value
  | value => value

end Value

end Monkey
