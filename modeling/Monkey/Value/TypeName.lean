/-!
# Names of types

Every value belongs to one of eight types. Messages speak of a value by the name of its type.
-/

namespace Monkey

/-- The type of a value. -/
inductive TypeName where
  | integer | boolean | string | null | function | builtin
  /-- The type of a value that is on its way out of a function. -/
  | returnValue
  | error
deriving DecidableEq

namespace TypeName

/-- How a type is named. -/
def text : TypeName → String
  | integer => "INTEGER"
  | boolean => "BOOLEAN"
  | string => "STRING"
  | null => "NULL"
  | function => "FUNCTION"
  | builtin => "BUILTIN"
  | returnValue => "RETURN_VALUE"
  | error => "ERROR"

end TypeName

end Monkey
