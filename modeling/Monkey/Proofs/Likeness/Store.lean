import Monkey.Proofs.Likeness.Value
import Monkey.Proofs.Session.Closed

/-!
# Stores that are alike

Two stores are alike if paired environments have like scopes. Each operation on a store keeps this
up, if it is done on both sides; what is new on both sides then is paired. What only one store does
in scopes of its own keeps it up as well.
-/

theorem Option.Rel.mono {α β : Type} {narrow wide : α → β → Prop} {first : Option α}
    {second : Option β} (related : Option.Rel narrow first second)
    (wider : ∀ value other, narrow value other → wide value other) :
    Option.Rel wide first second := by
  cases related with
  | some related => exact .some (wider _ _ related)
  | none => exact .none

namespace Monkey

section

variable (likeness : Likeness) (pairing : Pairing)

/-- Two scopes are inside paired environments, and names are bound to like values. -/
structure Scope.Alike (scope other : Scope) : Prop where
  outer : List.Forall₂ pairing.envs scope.outer other.outer
  bindings : ∀ name, likeness.names name →
    Option.Rel (Value.Alike likeness pairing) (scope.get? name) (other.get? name)

/-- Paired environments have like scopes. -/
structure Store.Alike (store other : Store) : Prop where
  ids : Numbering store.fresh other.fresh pairing.ids
  envs : Numbering store.scopes.size other.scopes.size pairing.envs
  scopes : ∀ {env otherEnv : Env}, pairing.envs env otherEnv → ∃ scope otherScope,
    store.scopes[env]? = some scope ∧ other.scopes[otherEnv]? = some otherScope ∧
      scope.Alike likeness pairing otherScope

end

namespace Pairing

/-- Two objects are paired as well. -/
def withId (pairing : Pairing) (identity other : Nat) : Pairing :=
  { pairing with ids := withPair pairing.ids identity other }

/-- Two environments are paired as well. -/
def withEnv (pairing : Pairing) (env other : Env) : Pairing :=
  { pairing with envs := withPair pairing.envs env other }

theorem within_withId (pairing : Pairing) (identity other : Nat) :
    pairing.Within (pairing.withId identity other) := ⟨.inl, id⟩

theorem within_withEnv (pairing : Pairing) (env other : Env) :
    pairing.Within (pairing.withEnv env other) := ⟨id, .inl⟩

end Pairing

variable {likeness : Likeness} {pairing : Pairing}

namespace Scope.Alike

variable {scope other : Scope}

theorem mono {larger : Pairing} (alike : scope.Alike likeness pairing other)
    (within : pairing.Within larger) : scope.Alike likeness larger other := by
  refine ⟨alike.outer.imp fun _ _ paired => within.envs paired, fun name seen => ?_⟩
  exact (alike.bindings name seen).mono fun _ _ valueAlike => valueAlike.mono within

theorem opened {outer otherOuter : List Env} (paired : List.Forall₂ pairing.envs outer otherOuter) :
    (Scope.opened outer).Alike likeness pairing (Scope.opened otherOuter) :=
  ⟨paired, fun _ _ => .none⟩

theorem set (alike : scope.Alike likeness pairing other) (name : String) {value otherValue : Value}
    (valueAlike : value.Alike likeness pairing otherValue) :
    (scope.set name value).Alike likeness pairing (other.set name otherValue) := by
  refine ⟨alike.outer, fun key seen => ?_⟩
  by_cases sameName : key = name
  · subst sameName
    rw [get?_set_self, get?_set_self]
    exact .some valueAlike
  · rw [get?_set_of_ne _ _ sameName, get?_set_of_ne _ _ sameName]
    exact alike.bindings key seen

end Scope.Alike

namespace Store.Alike

variable {store other : Store} {env otherEnv : Env}

theorem record (alike : store.Alike likeness pairing other) (event otherEvent : Event) :
    (store.record event).Alike likeness pairing (other.record otherEvent) :=
  ⟨alike.ids, alike.envs, alike.scopes⟩

/-- The next identities on both sides become a pair. -/
theorem issue (alike : store.Alike likeness pairing other) :
    Store.Alike likeness (pairing.withId store.fresh other.fresh)
      { store with fresh := store.fresh + 1 } { other with fresh := other.fresh + 1 } := by
  refine ⟨alike.ids.withPair, alike.envs, fun paired => ?_⟩
  rcases alike.scopes paired with ⟨scope, otherScope, found, otherFound, scopeAlike⟩
  exact ⟨scope, otherScope, found, otherFound, scopeAlike.mono (pairing.within_withId _ _)⟩

/-- The new environments on both sides become a pair. -/
theorem openScope (alike : store.Alike likeness pairing other) {outer otherOuter : List Env}
    (outerPaired : List.Forall₂ pairing.envs outer otherOuter) :
    (store.openScope outer).2.Alike likeness
      (pairing.withEnv store.scopes.size other.scopes.size) (other.openScope otherOuter).2 := by
  have within := pairing.within_withEnv store.scopes.size other.scopes.size
  refine ⟨alike.ids, ?_, fun paired => ?_⟩
  · rw [size_openScope, size_openScope]
    exact alike.envs.withPair
  rcases paired with paired | ⟨rfl, rfl⟩
  · have below := alike.envs.below paired
    rcases alike.scopes paired with ⟨scope, otherScope, found, otherFound, scopeAlike⟩
    rw [getElem?_openScope _ _ below.1, getElem?_openScope _ _ below.2]
    exact ⟨scope, otherScope, found, otherFound, scopeAlike.mono within⟩
  · simp only [Store.openScope, Array.getElem?_push_size]
    exact ⟨_, _, rfl, rfl, (Scope.Alike.opened outerPaired).mono within⟩

theorem set (alike : store.Alike likeness pairing other) (paired : pairing.envs env otherEnv)
    (name : String) {value otherValue : Value}
    (valueAlike : value.Alike likeness pairing otherValue) :
    (store.set env name value).2.Alike likeness pairing (other.set otherEnv name otherValue).2 := by
  refine ⟨alike.ids, by simpa using alike.envs, fun {scopeEnv otherScopeEnv} scopePaired => ?_⟩
  -- Either both stores bind the name in the scopes that are looked at, or none does.
  have sameEnv : env = scopeEnv ↔ otherEnv = otherScopeEnv :=
    Relator.rel_eq alike.envs.unique paired scopePaired
  rcases alike.scopes scopePaired with ⟨scope, otherScope, found, otherFound, scopeAlike⟩
  rw [getElem?_set, getElem?_set, found, otherFound]
  by_cases touched : env = scopeEnv
  · rw [if_pos touched, if_pos (sameEnv.mp touched)]
    exact ⟨_, _, rfl, rfl, scopeAlike.set name valueAlike⟩
  · rw [if_neg touched, if_neg (fun same => touched (sameEnv.mpr same))]
    exact ⟨scope, otherScope, rfl, rfl, scopeAlike⟩

theorem setAll (alike : store.Alike likeness pairing other) (paired : pairing.envs env otherEnv)
    (params : List String) {args otherArgs : List Value}
    (argsAlike : List.Forall₂ (Value.Alike likeness pairing) args otherArgs) :
    (store.setAll env (params.zip args)).Alike likeness pairing
      (other.setAll otherEnv (params.zip otherArgs)) := by
  induction argsAlike generalizing store other params with
  | nil => simpa using alike
  | cons argAlike _ ih =>
      cases params with
      | nil => exact alike
      | cons param params => exact ih (alike.set paired param argAlike) params

/-- Scopes that only one store has do not count, and neither do identities nor other names. -/
theorem intactFor (alike : store.Alike likeness pairing other) {later otherLater : Store}
    (intact : store.IntactFor likeness.names later)
    (otherIntact : other.IntactFor likeness.names otherLater) :
    later.Alike likeness pairing otherLater := by
  refine ⟨alike.ids.mono intact.grows.fresh otherIntact.grows.fresh,
    alike.envs.mono intact.grows.size otherIntact.grows.size, fun paired => ?_⟩
  rcases alike.scopes paired with ⟨scope, otherScope, found, otherFound, scopeAlike⟩
  rcases intact.scopes found with ⟨after, stillFound, outer, bindings⟩
  rcases otherIntact.scopes otherFound with ⟨otherAfter, otherStillFound, otherOuter, otherBindings⟩
  refine ⟨after, otherAfter, stillFound, otherStillFound, ?_, fun name seen => ?_⟩
  · rw [outer, otherOuter]
    exact scopeAlike.outer
  · rw [bindings name seen, otherBindings name seen]
    exact scopeAlike.bindings name seen

theorem intact (alike : store.Alike likeness pairing other) {later otherLater : Store}
    (intact : store.Intact later) (otherIntact : other.Intact otherLater) :
    later.Alike likeness pairing otherLater :=
  alike.intactFor (intact.intactFor _) (otherIntact.intactFor _)

/-! ### What names stand for -/

theorem chain (alike : store.Alike likeness pairing other) (paired : pairing.envs env otherEnv) :
    List.Forall₂ pairing.envs (store.chain env) (other.chain otherEnv) := by
  rcases alike.scopes paired with ⟨scope, otherScope, found, otherFound, scopeAlike⟩
  rw [Store.chain, Store.chain, found, otherFound]
  exact .cons paired scopeAlike.outer

theorem depth_eq (alike : store.Alike likeness pairing other) (paired : pairing.envs env otherEnv) :
    store.depth env = other.depth otherEnv :=
  (alike.chain paired).length_eq

theorem bound? (alike : store.Alike likeness pairing other) (paired : pairing.envs env otherEnv)
    {name : String} (seen : likeness.names name) :
    Option.Rel (Value.Alike likeness pairing) (store.bound? env name)
      (other.bound? otherEnv name) := by
  rcases alike.scopes paired with ⟨scope, otherScope, found, otherFound, scopeAlike⟩
  rw [Store.bound?, Store.bound?, found, otherFound]
  exact scopeAlike.bindings name seen

theorem find? (alike : store.Alike likeness pairing other) {name : String}
    (seen : likeness.names name) {envs otherEnvs : List Env}
    (paired : List.Forall₂ pairing.envs envs otherEnvs) :
    Option.Rel (Value.Alike likeness pairing) (store.find? name envs)
      (other.find? name otherEnvs) := by
  induction paired with
  | nil => exact .none
  | @cons env otherEnv _ _ first _ ih =>
      have bound := alike.bound? first seen
      rw [Store.find?, Store.find?]
      generalize store.bound? env name = held, other.bound? otherEnv name = otherHeld at bound
      cases bound with
      | some valueAlike => exact .some valueAlike
      | none => exact ih

theorem get? (alike : store.Alike likeness pairing other) (paired : pairing.envs env otherEnv)
    {name : String} (seen : likeness.names name) :
    Option.Rel (Value.Alike likeness pairing) (store.get? env name) (other.get? otherEnv name) :=
  alike.find? seen (alike.chain paired)

end Store.Alike

/-! ### Every store is like itself -/

/-- All objects and environments of a store, each paired with itself. -/
def Store.diagonal (store : Store) : Pairing where
  ids identity other := identity = other ∧ identity < store.fresh
  envs env other := env = other ∧ env < store.scopes.size

theorem numbering_diagonal (next : Nat) :
    Numbering next next fun number other => number = other ∧ number < next := by
  refine ⟨?_, ?_, ?_⟩
  · rintro number _ ⟨rfl, below⟩
    exact ⟨below, below⟩
  · rintro number other _ ⟨rfl, -⟩ ⟨rfl, -⟩
    rfl
  · rintro number other _ ⟨rfl, -⟩ ⟨rfl, -⟩
    rfl

theorem Value.Known.alike_self (same : ∀ body, likeness.bodies body body) {store : Store}
    {value : Value} (known : value.Known store) :
    value.Alike likeness store.diagonal value := by
  induction value with
  | int value => exact .int value
  | bool value => exact .bool value
  | null => exact .null
  | str identity text => exact .str text ⟨rfl, known⟩
  | fn => exact .fn ⟨rfl, known.1⟩ (same _) ⟨rfl, known.2⟩
  | builtin identity callee => exact .builtin callee ⟨rfl, known⟩
  | returned _ ih => exact .returned (ih known)
  | error fault => exact .error fault

theorem Store.Closed.alike_self (same : ∀ body, likeness.bodies body body) {store : Store}
    (closed : store.Closed) : store.Alike likeness store.diagonal store := by
  refine ⟨numbering_diagonal _, numbering_diagonal _, ?_⟩
  rintro env _ ⟨rfl, existing⟩
  have found := Array.getElem?_eq_getElem existing
  refine ⟨_, _, found, found, List.forall₂_same.mpr fun around member => ⟨rfl, ?_⟩,
    fun name _ => ?_⟩
  · exact Nat.lt_trans (closed.outer env _ found around member) existing
  · cases bound : store.scopes[env].get? name with
    | none => exact .none
    | some value =>
        refine .some (Value.Known.alike_self same (closed.bound env name value ?_))
        rw [bound?, found, Option.bind_some, bound]

theorem Value.Known.alike {store : Store} {value : Value} (known : value.Known store) :
    value.Alike .full store.diagonal value :=
  known.alike_self fun _ => rfl

theorem Store.Closed.alike {store : Store} (closed : store.Closed) :
    store.Alike .full store.diagonal store :=
  closed.alike_self fun _ => rfl

end Monkey
