import Monkey.Store.Event
import Monkey.Store.Scope

/-!
# The store

All scopes that have ever been opened live in one store, under numbers that never change; functions
and callers share them. An environment is such a number: it stands for its scope and, from the
inside out, the scopes around that. A name is looked up in all of them, innermost first, and is
always bound in the innermost one.

The store also hands out the identities of objects and keeps the log of events.
-/

namespace Monkey

/-- What evaluations share. -/
structure Store where
  /-- The scopes, by number. -/
  scopes : Array Scope
  /-- The identity of the next object. -/
  fresh : Nat
  /-- What has happened, in order. -/
  log : Array Event
deriving DecidableEq

namespace Store

/-- The store in which nothing has happened. -/
def empty : Store := ⟨#[], 0, #[]⟩

/-- Logs an event. -/
def record (store : Store) (event : Event) : Store := { store with log := store.log.push event }

/-- Opens a scope inside others; without these it is a global scope. -/
def openScope (store : Store) (outer : List Env) : Env × Store :=
  (store.scopes.size, { store with scopes := store.scopes.push (.opened outer) })

/-- The scopes of an environment, from the inside out. -/
def chain (store : Store) (env : Env) : List Env :=
  env :: (store.scopes[env]?.map (·.outer)).getD []

/-- How many scopes an environment has. -/
def depth (store : Store) (env : Env) : Nat := (store.chain env).length

/-- A new environment with one scope. -/
def newEnv (store : Store) : Env × Store := store.openScope []

/-- A new environment inside another one. -/
def enclose (store : Store) (env : Env) : Env × Store := store.openScope (store.chain env)

/-- What one scope binds a name to. -/
def bound? (store : Store) (env : Env) (name : String) : Option Value :=
  store.scopes[env]?.bind (·.get? name)

/-- The value of a name in the first scope of a list that binds it. -/
def find? (store : Store) (name : String) : List Env → Option Value
  | [] => none
  | env :: outer =>
    match store.bound? env name with
    | some value => some value
    | none => store.find? name outer

/-- The value of a name in an environment. -/
def get? (store : Store) (env : Env) (name : String) : Option Value :=
  store.find? name (store.chain env)

/-- Binds a name in the innermost scope of an environment, and gives the value. -/
def set (store : Store) (env : Env) (name : String) (value : Value) : Value × Store :=
  (value, { store with scopes := store.scopes.modify env (·.set name value) }.record
    (.bound env name value))

/-- Binds several names in turn; of a name that comes twice the last value stays. -/
def setAll (store : Store) (env : Env) (bindings : List (String × Value)) : Store :=
  bindings.foldl (fun store binding => (store.set env binding.1 binding.2).2) store

/-- Makes a value that may be an object, or logs the fault that there is instead. -/
def answer (store : Store) (make : Nat → Except Fault Value) : Value × Store :=
  match make store.fresh with
  | .ok value => (value, { store with fresh := store.fresh + 1 })
  | .error fault => (.error fault, store.record (.failed fault))

/-- The value of a name: what an environment binds it to, else a builtin function, which is made
anew each time. -/
def resolve (store : Store) (env : Env) (name : String) : Value × Store :=
  match store.get? env name with
  | some value => (value, store)
  | none =>
    store.answer fun fresh =>
      match Builtin.ofName? name with
      | some builtin => .ok (.builtin fresh builtin)
      | none => .error (.unboundName name)

end Store

end Monkey
