import Monkey.Value.Basic

/-!
# Events

What happens in an evaluation is logged: applications, from their start to their end, faults at the
moment they are made, and bindings. `Event.line?` is the text of an event; bindings have none.
-/

namespace Monkey

/-- What can happen in an evaluation. -/
inductive Event where
  /-- A value is applied to arguments. -/
  | applied (callee : Value) (args : List Value)
  /-- The application begins. -/
  | entered
  /-- The body of a function is about to be evaluated in a new scope. -/
  | calling (params depth : Nat)
  /-- A fault is made. -/
  | failed (fault : Fault)
  /-- The application has ended. -/
  | exited
  /-- A name is bound in a scope. -/
  | bound (env : Env) (name : String) (value : Value)
deriving DecidableEq

/-- The text of an event in a trace. -/
def Event.line? : Event → Option String
  | applied _ _ => some "DEBUG span apply_function"
  | entered => some "enter"
  | calling params depth =>
    some ("DEBUG calling function arguments=" ++ toString params ++ " depth=" ++ toString depth)
  | failed fault => some ("DEBUG runtime error error=" ++ fault.message)
  | exited => some "exit"
  | bound _ _ _ => none

end Monkey
