import Mathlib.Logic.Relation
import Monkey.Proofs.Evaluation.Frame

/-!
# How a store goes on

Whatever is evaluated, the store goes on in steps of four kinds: an event is logged, an identity is
handed out, a scope is opened, or a name is bound. No step takes anything back. Identities and scopes
stay in use, the log grows at its end, and it tells in which scopes a name has been bound: all others
are as they were.
-/

namespace Monkey

/-- No identity and no scope has been given up. -/
structure Store.Grows (store later : Store) : Prop where
  fresh : store.fresh ≤ later.fresh
  size : store.scopes.size ≤ later.scopes.size

namespace Store.Grows

theorem refl (store : Store) : store.Grows store := ⟨Nat.le_refl _, Nat.le_refl _⟩

theorem trans {first second third : Store} (earlier : first.Grows second)
    (next : second.Grows third) : first.Grows third :=
  ⟨Nat.le_trans earlier.fresh next.fresh, Nat.le_trans earlier.size next.size⟩

theorem record (store : Store) (event : Event) : store.Grows (store.record event) :=
  ⟨Nat.le_refl _, Nat.le_refl _⟩

theorem issue (store : Store) : store.Grows { store with fresh := store.fresh + 1 } :=
  ⟨Nat.le_succ _, Nat.le_refl _⟩

theorem openScope (store : Store) (outer : List Env) : store.Grows (store.openScope outer).2 :=
  ⟨Nat.le_refl _, by simp⟩

theorem set (store : Store) (env : Env) (name : String) (value : Value) :
    store.Grows (store.set env name value).2 :=
  ⟨Nat.le_refl _, by simp⟩

end Store.Grows

/-- All scopes are as they were, and no identity has been given up. -/
structure Store.Intact (store later : Store) : Prop where
  grows : store.Grows later
  scopes : ∀ env < store.scopes.size, later.scopes[env]? = store.scopes[env]?

namespace Store.Intact

theorem refl (store : Store) : store.Intact store := ⟨.refl store, fun _ _ => rfl⟩

theorem trans {first second third : Store} (earlier : first.Intact second)
    (next : second.Intact third) : first.Intact third := by
  refine ⟨earlier.grows.trans next.grows, fun env existing => ?_⟩
  rw [next.scopes env (Nat.lt_of_lt_of_le existing earlier.grows.size), earlier.scopes env existing]

end Store.Intact

/-- In all scopes these names are bound as they were, and no identity has been given up. -/
structure Store.IntactFor (names : String → Prop) (store later : Store) : Prop where
  grows : store.Grows later
  scopes : ∀ {env : Env} {scope : Scope}, store.scopes[env]? = some scope →
    ∃ after, later.scopes[env]? = some after ∧ after.outer = scope.outer ∧
      ∀ name, names name → after.get? name = scope.get? name

namespace Store.IntactFor

variable {names : String → Prop}

theorem refl (store : Store) : store.IntactFor names store :=
  ⟨.refl store, fun found => ⟨_, found, rfl, fun _ _ => rfl⟩⟩

theorem trans {first second third : Store} (earlier : first.IntactFor names second)
    (next : second.IntactFor names third) : first.IntactFor names third := by
  refine ⟨earlier.grows.trans next.grows, fun found => ?_⟩
  rcases earlier.scopes found with ⟨after, stillFound, outer, bindings⟩
  rcases next.scopes stillFound with ⟨last, lastFound, lastOuter, lastBindings⟩
  exact ⟨last, lastFound, lastOuter.trans outer,
    fun name seen => (lastBindings name seen).trans (bindings name seen)⟩

/-- Another name may be bound. -/
theorem set {store : Store} (env : Env) {name : String} (other : ¬ names name) (value : Value) :
    store.IntactFor names (store.set env name value).2 := by
  refine ⟨.set store env name value, fun {scopeEnv scope} found => ?_⟩
  rw [getElem?_set, found]
  by_cases touched : env = scopeEnv
  · rw [if_pos touched]
    refine ⟨_, rfl, rfl, fun key seen => ?_⟩
    have different : key ≠ name := fun same => other (same ▸ seen)
    exact Scope.get?_set_of_ne scope value different
  · rw [if_neg touched]
    exact ⟨scope, rfl, rfl, fun _ _ => rfl⟩

end Store.IntactFor

theorem Store.Intact.intactFor {store later : Store} (intact : store.Intact later)
    (names : String → Prop) : store.IntactFor names later := by
  refine ⟨intact.grows, fun {env scope} found => ⟨scope, ?_, rfl, fun _ _ => rfl⟩⟩
  rw [intact.scopes env (Array.getElem?_eq_some_iff.mp found).1, found]

namespace Store

/-- What can happen to a store at a time. -/
inductive Step : Store → Store → Prop where
  | record {store : Store} (event : Event) : Step store (store.record event)
  | issue {store : Store} : Step store { store with fresh := store.fresh + 1 }
  | openScope {store : Store} (outer : List Env) : Step store (store.openScope outer).2
  | set {store : Store} (env : Env) (name : String) (value : Value) :
      Step store (store.set env name value).2

/-- The second store is what the first one has become in some steps. -/
def Later : Store → Store → Prop := Relation.ReflTransGen Step

namespace Later

variable {store last : Store}

theorem refl (store : Store) : store.Later store := Relation.ReflTransGen.refl

theorem trans {middle : Store} (earlier : store.Later middle) (next : middle.Later last) :
    store.Later last := Relation.ReflTransGen.trans earlier next

theorem record (later : store.Later last) (event : Event) : store.Later (last.record event) :=
  later.tail (.record event)

theorem issue (later : store.Later last) : store.Later { last with fresh := last.fresh + 1 } :=
  later.tail .issue

theorem openScope (later : store.Later last) (outer : List Env) :
    store.Later (last.openScope outer).2 :=
  later.tail (.openScope outer)

theorem set (later : store.Later last) (env : Env) (name : String) (value : Value) :
    store.Later (last.set env name value).2 :=
  later.tail (.set env name value)

theorem setAll (later : store.Later last) (env : Env) (bindings : List (String × Value)) :
    store.Later (last.setAll env bindings) := by
  induction bindings generalizing last with
  | nil => exact later
  | cons binding rest ih => exact ih (later.set env binding.1 binding.2)

end Later

/-- A name is bound in the scope by one of the events. -/
def BoundIn (events : List Event) (env : Env) : Prop :=
  ∃ name value, Event.bound env name value ∈ events

/-- From the first store to the second one exactly these events have happened. What they bind no name
in is as it was. -/
structure Went (events : List Event) (store later : Store) : Prop where
  grows : store.Grows later
  log : later.log.toList = store.log.toList ++ events
  scopes : Scope.Frame (BoundIn events) store.scopes later.scopes

theorem Went.trans {events more : List Event} {first second third : Store}
    (earlier : Went events first second) (next : Went more second third) :
    Went (events ++ more) first third := by
  refine ⟨earlier.grows.trans next.grows, by rw [next.log, earlier.log, List.append_assoc], ?_⟩
  refine (earlier.scopes.mono fun env bound => ?_).trans (next.scopes.mono fun env bound => ?_)
  · rcases bound with ⟨name, value, member⟩
    exact ⟨name, value, List.mem_append_left _ member⟩
  · rcases bound with ⟨name, value, member⟩
    exact ⟨name, value, List.mem_append_right _ member⟩

theorem Step.went {store later : Store} (step : store.Step later) :
    ∃ events, Went events store later := by
  cases step with
  | record event => exact ⟨[event], .record store event, log_record store event, .refl _⟩
  | issue => exact ⟨[], .issue store, by simp, .refl _⟩
  | openScope outer =>
      refine ⟨[], .openScope store outer, by simp, .of_same (by simp) fun env existing => ?_⟩
      exact getElem?_openScope store outer existing
  | set env name value =>
      refine ⟨[.bound env name value], .set store env name value, log_set store env name value, ?_⟩
      refine (frame_set store env name value).mono ?_
      rintro _ rfl
      exact ⟨name, value, List.mem_singleton_self _⟩

theorem Later.went {store last : Store} (later : store.Later last) :
    ∃ events, Went events store last := by
  induction later with
  | refl => exact ⟨[], .refl store, by simp, .refl _⟩
  | tail _ step ih =>
      rcases ih with ⟨events, earlier⟩
      rcases step.went with ⟨more, next⟩
      exact ⟨events ++ more, earlier.trans next⟩

theorem Later.grows {store last : Store} (later : store.Later last) : store.Grows last := by
  rcases later.went with ⟨_, went⟩
  exact went.grows

end Store

theorem Machine.later_applying (machine : Machine) (callee : Value) (args : List Value) :
    machine.store.Later (machine.applying callee args).store :=
  ((Store.Later.refl machine.store).record _).record _

theorem Machine.later_inside (machine : Machine) (env : Env) (params : List String)
    (args : List Value) : machine.store.Later (machine.inside env params args).store :=
  (((Store.Later.refl machine.store).openScope _).setAll _ _).record _

/-- Evaluations move the store on. -/
def Contract.later : Contract where
  pre _ := True
  fits _ _ := True
  post machine _ later := machine.store.Later later.store
  applied machine _ later := machine.store.Later later.store
  settled _ _ := trivial
  ready _ _ _ := trivial
  keeps _ _ _ := trivial
  trans earlier _ next := earlier.trans next
  arrived post := post
  post_of_applied applied := applied
  atomic _ _ := trivial
  value _ _ := .refl _
  returned _ _ := .refl _
  made _ _ := (Store.Later.refl _).issue
  failed fault _ := (Store.Later.refl _).record (.failed fault)
  close _ _ _ := (Store.Later.refl _).issue
  lookup _ _ := .refl _
  bind name _ _ := (Store.Later.refl _).set _ name _
  answer _ _ _ _ := (Machine.later_applying _ _ _).issue.record _
  refuse fault _ _ _ := ((Machine.later_applying _ _ _).record (.failed fault)).record _
  enter _ _ _ _ := trivial
  leave _ _ _ _ post :=
    ((Machine.later_applying _ _ _).trans ((Machine.later_inside _ _ _ _).trans post)).record _

/-- However an evaluation ends, the store has moved on. -/
theorem Task.later_of_run {fuel : Nat} {task : Task} {machine last : Machine} {value : Value}
    (ends : task.run fuel machine = some (value, last)) : machine.store.Later last.store := by
  have admits : Contract.later.Admits ⟨fuel, task, machine⟩ := by
    refine ⟨trivial, ?_⟩
    cases task <;> simp [Contract.FitsTask, Contract.later]
  exact admits.post ends

theorem Evaluation.Starts.later {outer inner : Evaluation} (starts : outer.Starts inner) :
    outer.machine.store.Later inner.machine.store := by
  cases starts with
  | right ran | consequence ran | eitherConsequence ran | alternative ran | args ran
  | laterArgs ran | laterStmts ran => exact Task.later_of_run ran
  | body => exact (Machine.later_applying _ _ _).trans (Machine.later_inside _ _ _ _)
  | _ => exact .refl _

end Monkey
