/-!
# Builtin functions

Two functions belong to the language itself. Their names are no keywords: a binding of the same name
hides them.
-/

namespace Monkey

/-- A function that belongs to the language. -/
inductive Builtin where
  /-- Counts the characters of a string. -/
  | length
  /-- Names the type of a value. -/
  | typeOf
deriving DecidableEq

namespace Builtin

/-- The name by which a builtin function is called. -/
def name : Builtin → String
  | length => "len"
  | typeOf => "type"

/-- All builtin functions. -/
def all : List Builtin := [length, typeOf]

/-- The builtin function of a given name. -/
def ofName? (name : String) : Option Builtin := all.find? fun builtin => builtin.name = name

end Builtin

end Monkey
