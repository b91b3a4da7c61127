import Monkey.Store.Basic

/-!
# Runs

A machine is the store together with the environment that is current. A `Run` turns a machine
into a value and the machine afterwards. It may also end without a result, which happens only
where calls nest deeper than is allowed for.

`thenPlain` is the one way in which runs are put together: what comes next sees plain values
only, and a carrier cuts it off.
-/

namespace Monkey

/-- What an evaluation works on. -/
structure Machine where
  /-- The current environment: names are looked up, bound and captured in it. -/
  env : Env
  /-- The store. -/
  store : Store
deriving DecidableEq

/-- Logs an event. -/
def Machine.record (machine : Machine) (event : Event) : Machine :=
  { machine with store := machine.store.record event }

/-- Binds a name in the current environment. -/
def Machine.bind (machine : Machine) (name : String) (value : Value) : Machine :=
  { machine with store := (machine.store.set machine.env name value).2 }

/-- Logs that an application begins. -/
def Machine.applying (machine : Machine) (callee : Value) (args : List Value) : Machine :=
  (machine.record (.applied callee args)).record .entered

/-- The machine that evaluates the body of a function: a new environment inside `env`, which binds
the parameters, is current. -/
def Machine.inside (machine : Machine) (env : Env) (params : List String) (args : List Value) :
    Machine :=
  let (inner, store) := machine.store.enclose env
  let store := store.setAll inner (params.zip args)
  ⟨inner, store.record (.calling params.length (store.depth inner))⟩

/-- An evaluation. -/
abbrev Run := Machine → Option (Value × Machine)

namespace Run

/-- Gives a value and changes nothing. -/
def value (value : Value) : Run := fun machine => some (value, machine)

/-- Makes a value, or logs the fault that there is instead. -/
def answer (make : Nat → Except Fault Value) : Run := fun machine =>
  let (value, store) := machine.store.answer make
  some (value, { machine with store := store })

/-- Makes a function that keeps the current environment. -/
def close (params : List String) (body : List Stmt) : Run := fun machine =>
  answer (fun fresh => .ok (.fn fresh params body machine.env)) machine

/-- The value of a name in the current environment. -/
def resolve (name : String) : Run := fun machine =>
  let (value, store) := machine.store.resolve machine.env name
  some (value, { machine with store := store })

/-- Binds a name in the current environment; the result is null. -/
def bind (name : String) (value : Value) : Run := fun machine =>
  some (.null, machine.bind name value)

/-- Runs `first`. A carrier is the result; a plain value is handed to `next`. -/
def thenPlain (first : Run) (next : Value → Run) : Run := fun machine =>
  match first machine with
  | none => none
  | some (value, later) => if value.isCarrier then some (value, later) else next value later

end Run

end Monkey
