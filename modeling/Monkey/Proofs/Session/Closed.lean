import Monkey.Proofs.Evaluation.History
import Monkey.Proofs.Session.Reach

/-!
# Nothing dangles

All identities and environments that are met in a session come from its store: a value has no identity
that is still to be handed out, a function has no environment without a scope, and the scopes around
a scope are older than that.
-/

namespace Monkey

/-- The identity of a value has been handed out, and its environment has a scope. -/
def Value.Known (store : Store) : Value → Prop
  | .str identity _ | .builtin identity _ => identity < store.fresh
  | .fn identity _ _ env => identity < store.fresh ∧ env < store.scopes.size
  | .returned value => value.Known store
  | _ => True

namespace Value

variable {store later : Store} {value : Value}

theorem Known.mono (grows : store.Grows later) (known : value.Known store) : value.Known later := by
  induction value with
  | str | builtin => exact Nat.lt_of_lt_of_le known grows.fresh
  | fn => exact ⟨Nat.lt_of_lt_of_le known.1 grows.fresh, Nat.lt_of_lt_of_le known.2 grows.size⟩
  | returned _ ih => exact ih known
  | _ => trivial

theorem Known.arrived (known : value.Known store) : value.arrived.Known store := by
  cases value <;> exact known

theorem Atomic.known (atomic : value.Atomic) (store : Store) : value.Known store := by
  cases atomic <;> trivial

theorem Made.known {machine : Machine} (made : value.Made machine.store.fresh) :
    value.Known machine.issue.store := by
  rcases made with atomic | _ | _
  · exact atomic.known _
  all_goals exact Nat.lt_succ_self _

end Value

/-- Scopes are inside older ones only, and bind names to known values. -/
structure Store.Closed (store : Store) : Prop where
  outer : ∀ (env : Env) (scope : Scope), store.scopes[env]? = some scope →
    ∀ around ∈ scope.outer, around < env
  bound : ∀ env name value, store.bound? env name = some value → value.Known store

namespace Store.Closed

variable {store : Store}

theorem record (closed : store.Closed) (event : Event) : (store.record event).Closed :=
  ⟨closed.outer, fun env name _ found => (closed.bound env name _ found).mono (.record store event)⟩

theorem openScope (closed : store.Closed) {outer : List Env}
    (existing : ∀ around ∈ outer, around < store.scopes.size) :
    (store.openScope outer).2.Closed := by
  have opened : (store.openScope outer).2.Binds (Value.Known store) :=
    Binds.openScope closed.bound outer
  refine ⟨fun env scope found around member => ?_,
    opened.mono fun _ => Value.Known.mono (.openScope store outer)⟩
  rw [Store.openScope, Array.getElem?_push] at found
  split at found
  · rename_i new
    cases found
    exact new ▸ existing around member
  · exact closed.outer env scope found around member

theorem set (closed : store.Closed) (env : Env) (name : String) {value : Value}
    (known : value.Known store) : (store.set env name value).2.Closed := by
  have set : (store.set env name value).2.Binds (Value.Known store) :=
    Binds.set closed.bound env name known
  refine ⟨fun other scope found around member => ?_,
    set.mono fun _ => Value.Known.mono (.set store env name value)⟩
  rw [getElem?_set] at found
  split at found
  · rcases Option.map_eq_some_iff.mp found with ⟨before, foundBefore, rfl⟩
    exact closed.outer other before foundBefore around member
  · exact closed.outer other scope found around member

theorem setAll (closed : store.Closed) (env : Env) {bindings : List (String × Value)}
    (known : ∀ binding ∈ bindings, binding.2.Known store) : (store.setAll env bindings).Closed := by
  induction bindings generalizing store with
  | nil => exact closed
  | cons binding rest ih =>
      refine ih (closed.set env binding.1 (known binding (by simp))) fun other member => ?_
      exact (known other (by simp [member])).mono (.set store env binding.1 binding.2)

theorem chain_lt (closed : store.Closed) {env : Env} (existing : env < store.scopes.size) :
    ∀ around ∈ store.chain env, around < store.scopes.size := by
  intro around member
  rw [chain, Array.getElem?_eq_getElem existing, Option.map_some, Option.getD_some,
    List.mem_cons] at member
  rcases member with rfl | member
  · exact existing
  · exact Nat.lt_trans (closed.outer env _ (Array.getElem?_eq_getElem existing) around member) existing

theorem enclose (closed : store.Closed) {env : Env} (existing : env < store.scopes.size) :
    (store.enclose env).2.Closed :=
  closed.openScope (closed.chain_lt existing)

theorem get? (closed : store.Closed) {env : Env} {name : String} {value : Value}
    (found : store.get? env name = some value) : value.Known store :=
  Binds.get? closed.bound found

end Store.Closed

/-- The current environment has a scope, and nothing in the store dangles. -/
structure Machine.Closed (machine : Machine) : Prop where
  existing : machine.env < machine.store.scopes.size
  closed : machine.store.Closed

namespace Machine

theorem Closed.issue {machine : Machine} (closed : machine.Closed) : machine.issue.Closed :=
  ⟨closed.existing, closed.closed.outer, fun env name _ found =>
    (closed.closed.bound env name _ found).mono (.issue machine.store)⟩

theorem Closed.record {machine : Machine} (closed : machine.Closed) (event : Event) :
    (machine.record event).Closed :=
  ⟨closed.existing, closed.closed.record event⟩

theorem Closed.applying {machine : Machine} (closed : machine.Closed) (callee : Value)
    (args : List Value) : (machine.applying callee args).Closed :=
  (closed.record _).record _

theorem grows_inside (machine : Machine) (env : Env) (params : List String) (args : List Value) :
    machine.store.Grows (machine.inside env params args).store :=
  (machine.later_inside env params args).grows

theorem Closed.inside {machine : Machine} (closed : machine.Closed) {env : Env}
    (existing : env < machine.store.scopes.size) (params : List String) {args : List Value}
    (known : ∀ arg ∈ args, arg.Known machine.store) : (machine.inside env params args).Closed := by
  refine ⟨by simp, ?_⟩
  refine ((closed.closed.enclose existing).setAll _ fun binding member => ?_).record _
  exact (known binding.2 (List.of_mem_zip member).2).mono (.openScope machine.store _)

/-- The second machine has the same environment, and nothing is given up or dangles in it. -/
structure ClosedAfter (machine later : Machine) : Prop where
  env : later.env = machine.env
  grows : machine.store.Grows later.store
  closed : later.Closed

namespace ClosedAfter

theorem refl {machine : Machine} (closed : machine.Closed) : machine.ClosedAfter machine :=
  ⟨rfl, .refl _, closed⟩

theorem trans {first second third : Machine} (earlier : first.ClosedAfter second)
    (next : second.ClosedAfter third) : first.ClosedAfter third :=
  ⟨next.env.trans earlier.env, earlier.grows.trans next.grows, next.closed⟩

theorem issue {machine later : Machine} (after : machine.ClosedAfter later) :
    machine.ClosedAfter later.issue :=
  ⟨after.env, after.grows.trans (.issue _), after.closed.issue⟩

theorem record {machine later : Machine} (after : machine.ClosedAfter later) (event : Event) :
    machine.ClosedAfter (later.record event) :=
  ⟨after.env, after.grows.trans (.record _ _), after.closed.record event⟩

theorem applying {machine : Machine} (closed : machine.Closed) (callee : Value)
    (args : List Value) : machine.ClosedAfter (machine.applying callee args) :=
  ((refl closed).record _).record _

end ClosedAfter

end Machine

/-- Evaluations let nothing dangle. -/
def Contract.closed : Contract where
  pre machine := machine.Closed
  fits machine value := value.Known machine.store
  post machine value later := machine.ClosedAfter later ∧ value.Known later.store
  applied machine value later := machine.ClosedAfter later ∧ value.Known later.store
  settled _ post := post.1.closed
  ready _ post _ := post.2
  keeps _ post fits := fits.mono post.1.grows
  trans earlier _ next := ⟨earlier.1.trans next.1, next.2⟩
  arrived post := ⟨post.1, post.2.arrived⟩
  post_of_applied applied := applied
  atomic _ atomic := atomic.known _
  value pre fits := ⟨.refl pre, fits⟩
  returned pre fits := ⟨.refl pre, fits⟩
  made pre made := ⟨(Machine.ClosedAfter.refl pre).issue, made.known⟩
  failed _ pre := ⟨(Machine.ClosedAfter.refl pre).record _, trivial⟩
  close _ _ pre := ⟨(Machine.ClosedAfter.refl pre).issue, Nat.lt_succ_self _, pre.existing⟩
  lookup pre found := ⟨.refl pre, pre.closed.get? found⟩
  bind {machine _} name pre fits :=
    ⟨⟨rfl, .set machine.store machine.env name _,
      by simpa using pre.existing, pre.closed.set machine.env name fits⟩, trivial⟩
  answer {machine callee _ args} pre _ _ made := by
    have known := @Value.Made.known _ (machine.applying callee args) made
    exact ⟨(Machine.ClosedAfter.applying pre callee args).issue.record _, known.mono (.record _ _)⟩
  refuse fault pre _ _ :=
    ⟨((Machine.ClosedAfter.applying pre _ _).record (.failed fault)).record _, trivial⟩
  enter pre calleeFits argsFit _ := by
    have existing := calleeFits.2
    refine (Machine.Closed.applying pre _ _).inside existing _ fun arg member => ?_
    exact (argsFit arg member).mono (Machine.ClosedAfter.applying pre _ _).grows
  leave {machine later _ _ _ env args _} pre _ _ _ post := by
    have grows := ((Machine.ClosedAfter.applying pre _ _).grows.trans
      (Machine.grows_inside _ _ _ _)).trans post.1.grows
    refine ⟨⟨rfl, grows.trans (.record _ _), ?_, post.1.closed.closed.record _⟩,
      post.2.arrived.mono (.record _ _)⟩
    exact Nat.lt_of_lt_of_le pre.existing grows.size

theorem Store.closed_empty : Store.empty.Closed :=
  ⟨by simp [empty], by simp [bound?, empty]⟩

theorem Machine.closed_start : Machine.Closed ⟨Session.start.env, Session.start.store⟩ :=
  ⟨by decide, Store.closed_empty.openScope (List.forall_mem_nil _)⟩

theorem Session.Reached.closed {session : Session} (reached : session.Reached) :
    Machine.Closed ⟨session.env, session.store⟩ := by
  have pre : Contract.closed.pre ⟨session.env, session.store⟩ :=
    Contract.pre_of_reached Machine.closed_start reached
  exact pre

end Monkey
