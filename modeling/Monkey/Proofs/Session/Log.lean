import Monkey.Proofs.Session.Reach

/-!
# What the log tells of scopes

Whatever a scope binds has been logged, and a later binding of a name replaces an earlier one. So the
log alone tells what all scopes bind: to each name the value of the last event that binds it there.
In particular nothing is bound where nothing is logged.
-/

namespace Monkey

/-- The value that an event binds to a name in a scope. -/
def Event.binding? (env : Env) (name : String) : Event → Option Value
  | .bound scope key value => if scope = env ∧ key = name then some value else none
  | _ => none

/-- The value that was bound last to a name in a scope. -/
def latest? (events : List Event) (env : Env) (name : String) : Option Value :=
  (events.filterMap (Event.binding? env name)).getLast?

/-- The log tells what scopes bind. -/
def Store.Logged (store : Store) : Prop :=
  ∀ env name, store.bound? env name = latest? store.log.toList env name

theorem latest?_append_of_unbound {later : List Event} {env : Env} {name : String}
    (unbound : ∀ event ∈ later, event.binding? env name = none) (events : List Event) :
    latest? (events ++ later) env name = latest? events env name := by
  have none : later.filterMap (Event.binding? env name) = [] :=
    List.filterMap_eq_nil_iff.mpr unbound
  rw [latest?, List.filterMap_append, none, List.append_nil, latest?]

theorem latest?_append_bound (events : List Event) (env scope : Env) (name key : String)
    (value : Value) :
    latest? (events ++ [.bound scope key value]) env name =
      if scope = env ∧ key = name then some value else latest? events env name := by
  simp only [latest?, List.filterMap_append, List.filterMap_cons, Event.binding?,
    List.filterMap_nil]
  split
  · rename_i unbound
    split at unbound
    · cases unbound
    · simp [*]
  · rename_i bound
    split at bound
    · cases bound
      simp [*]
    · cases bound

namespace Store.Logged

variable {store : Store}

theorem record (logged : store.Logged) {event : Event}
    (unbound : ∀ env name, event.binding? env name = none) : (store.record event).Logged := by
  intro env name
  rw [bound?_record, log_record, latest?_append_of_unbound (by simpa using unbound env name)]
  exact logged env name

theorem openScope (logged : store.Logged) (outer : List Env) : (store.openScope outer).2.Logged := by
  intro env name
  rw [bound?_openScope, log_openScope]
  exact logged env name

theorem set (logged : store.Logged) {env : Env} (existing : env < store.scopes.size)
    (name : String) (value : Value) : (store.set env name value).2.Logged := by
  intro scope key
  rw [bound?_set, log_set, latest?_append_bound, logged scope key]
  simp [existing]

theorem setAll (logged : store.Logged) {env : Env} (existing : env < store.scopes.size)
    (bindings : List (String × Value)) : (store.setAll env bindings).Logged := by
  induction bindings generalizing store with
  | nil => exact logged
  | cons binding rest ih =>
      have sameSize := size_set store env binding.1 binding.2
      exact ih (logged.set existing binding.1 binding.2) (sameSize ▸ existing)

end Store.Logged

/-- The current environment has a scope, and the log tells what scopes bind. -/
structure Machine.Logged (machine : Machine) : Prop where
  existing : machine.env < machine.store.scopes.size
  logged : machine.store.Logged

theorem Machine.logged_applying {machine : Machine} (logged : machine.Logged) (callee : Value)
    (args : List Value) : (machine.applying callee args).Logged :=
  ⟨logged.existing, (logged.logged.record fun _ _ => rfl).record fun _ _ => rfl⟩

theorem Machine.logged_inside {machine : Machine} (logged : machine.Logged) (env : Env)
    (params : List String) (args : List Value) : (machine.inside env params args).Logged := by
  refine ⟨by simp, ?_⟩
  have existing : (machine.store.enclose env).1 < (machine.store.enclose env).2.scopes.size := by
    simp [Store.enclose, Store.openScope]
  have opened : (machine.store.enclose env).2.Logged := logged.logged.openScope _
  exact (opened.setAll existing _).record fun _ _ => rfl

/-- The second machine has the same environment, no fewer scopes, and a log that tells what they
bind. -/
structure Machine.LoggedAfter (machine later : Machine) : Prop where
  env : later.env = machine.env
  size : machine.store.scopes.size ≤ later.store.scopes.size
  logged : later.store.Logged

namespace Machine.LoggedAfter

theorem refl {machine : Machine} (logged : machine.Logged) : machine.LoggedAfter machine :=
  ⟨rfl, Nat.le_refl _, logged.logged⟩

theorem trans {first second third : Machine} (earlier : first.LoggedAfter second)
    (next : second.LoggedAfter third) : first.LoggedAfter third :=
  ⟨next.env.trans earlier.env, Nat.le_trans earlier.size next.size, next.logged⟩

theorem issue {machine later : Machine} (after : machine.LoggedAfter later) :
    machine.LoggedAfter later.issue :=
  ⟨after.env, after.size, after.logged⟩

theorem record {machine later : Machine} (after : machine.LoggedAfter later) {event : Event}
    (unbound : ∀ env name, event.binding? env name = none) :
    machine.LoggedAfter (later.record event) :=
  ⟨after.env, after.size, after.logged.record unbound⟩

theorem applying {machine : Machine} (logged : machine.Logged) (callee : Value)
    (args : List Value) : machine.LoggedAfter (machine.applying callee args) :=
  ((refl logged).record fun _ _ => rfl).record fun _ _ => rfl

end Machine.LoggedAfter

/-- Evaluations keep the log and the scopes in agreement. -/
def Contract.logged : Contract where
  pre machine := machine.Logged
  fits _ _ := True
  post machine _ later := machine.LoggedAfter later
  applied machine _ later := machine.LoggedAfter later
  settled pre post := ⟨post.env ▸ Nat.lt_of_lt_of_le pre.existing post.size, post.logged⟩
  ready _ _ _ := trivial
  keeps _ _ _ := trivial
  trans earlier _ next := earlier.trans next
  arrived post := post
  post_of_applied applied := applied
  atomic _ _ := trivial
  value pre _ := .refl pre
  returned pre _ := .refl pre
  made pre _ := (Machine.LoggedAfter.refl pre).issue
  failed _ pre := (Machine.LoggedAfter.refl pre).record fun _ _ => rfl
  close _ _ pre := (Machine.LoggedAfter.refl pre).issue
  lookup pre _ := .refl pre
  bind name pre _ := ⟨rfl, by simp, pre.logged.set pre.existing name _⟩
  answer pre _ _ _ := (Machine.LoggedAfter.applying pre _ _).issue.record fun _ _ => rfl
  refuse _ pre _ _ :=
    ((Machine.LoggedAfter.applying pre _ _).record fun _ _ => rfl).record fun _ _ => rfl
  enter pre _ _ _ := Machine.logged_inside (Machine.logged_applying pre _ _) _ _ _
  leave _ _ _ _ post := by
    have size := post.size
    simp only [Machine.size_inside, Machine.scopes_applying] at size
    exact ⟨rfl, Nat.le_of_succ_le size, post.logged.record fun _ _ => rfl⟩

theorem Store.logged_empty : Store.empty.Logged := by
  intro env name
  simp [bound?, empty, latest?]

theorem Machine.logged_start : Machine.Logged ⟨Session.start.env, Session.start.store⟩ :=
  ⟨by decide, Store.logged_empty.openScope []⟩

/-- In all sessions the log tells what scopes bind. -/
theorem Session.Reached.logged {session : Session} (reached : session.Reached) :
    session.store.Logged := by
  have pre : Contract.logged.pre ⟨session.env, session.store⟩ :=
    Contract.pre_of_reached Machine.logged_start reached
  exact pre.logged

end Monkey
