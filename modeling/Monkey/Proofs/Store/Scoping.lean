import Monkey.Proofs.Session.Closed
import Monkey.Proofs.Session.Depth
import Monkey.Proofs.Session.Log

/-!
# Names in nested environments

Whoever has a store opens environments in it, binds names in them and evaluates programs in them, in
any order. However this goes on, an environment stays inside the same others, and none is inside
itself. A name stands for what was bound to it last in the innermost environment that binds it at
all. So a new binding is seen only from where no other binding of the name is met on the way.
-/

namespace Monkey

namespace Store

/-- The environment right around another one. -/
def outer? (store : Store) (env : Env) : Option Env :=
  store.scopes[env]?.bind (·.outer.head?)

/-- Chains follow the links to the outside. -/
def Linked (store : Store) : Prop :=
  ∀ env outer, store.outer? env = some outer → store.chain env = env :: store.chain outer

/-- The environment is one of these, and none of those in front of it binds the name. -/
def SeenIn (store : Store) (name : String) (env : Env) (envs : List Env) : Prop :=
  ∃ inner outer, envs = inner ++ env :: outer ∧ ∀ scope ∈ inner, store.bound? scope name = none

/-! ### Links and chains -/

section

variable {store later : Store} {env outer : Env}

theorem outer?_eq_head? (store : Store) (env : Env) :
    store.outer? env = (store.chain env).tail.head? := by
  rw [outer?, chain]
  cases store.scopes[env]? <;> rfl

theorem chain_of_global (isGlobal : store.outer? env = none) : store.chain env = [env] := by
  rw [outer?_eq_head?, List.head?_eq_none_iff] at isGlobal
  exact congrArg (env :: ·) isGlobal

theorem Stays.outer?_eq (stays : store.Stays later) (existing : env < store.scopes.size) :
    later.outer? env = store.outer? env := by
  rw [outer?_eq_head?, outer?_eq_head?, stays.chain_eq existing]

theorem chain_set (store : Store) (env : Env) (name : String) (value : Value) :
    (store.set env name value).2.chain = store.chain := by
  funext other
  rw [chain, chain, getElem?_set]
  split <;> simp [Function.comp_def]

theorem outer?_set (store : Store) (env : Env) (name : String) (value : Value) :
    (store.set env name value).2.outer? = store.outer? := by
  funext other
  rw [outer?_eq_head?, outer?_eq_head?, chain_set]

theorem outer?_openScope (store : Store) (around : List Env) :
    (store.openScope around).2.outer? store.scopes.size = around.head? := by
  rw [outer?_eq_head?, chain_openScope, List.tail_cons]

theorem lt_size_of_outer? (link : store.outer? env = some outer) : env < store.scopes.size := by
  rcases Option.bind_eq_some_iff.mp link with ⟨scope, found, _⟩
  exact (Array.getElem?_eq_some_iff.mp found).1

theorem Closed.outer?_lt (closed : store.Closed) (link : store.outer? env = some outer) :
    outer < env := by
  rcases Option.bind_eq_some_iff.mp link with ⟨scope, found, first⟩
  exact closed.outer env scope found outer (List.mem_of_head? first)

/-- Whoever goes outwards comes to older environments only. -/
theorem Closed.lt_of_inside (closed : store.Closed)
    (path : Relation.TransGen (fun inner outer => store.outer? inner = some outer) env outer) :
    outer < env := by
  induction path with
  | single link => exact closed.outer?_lt link
  | tail _ link ih => exact Nat.lt_trans (closed.outer?_lt link) ih

end

namespace Linked

variable {store : Store}

theorem chain_eq (linked : store.Linked) (env : Env) :
    store.chain env = env :: (store.outer? env).elim [] store.chain := by
  cases link : store.outer? env with
  | none => exact chain_of_global link
  | some outer => exact linked env outer link

theorem depth_eq (linked : store.Linked) (env : Env) :
    store.depth env = (store.outer? env).elim 1 fun outer => 1 + store.depth outer := by
  rw [depth, linked.chain_eq, List.length_cons, Nat.add_comm]
  cases store.outer? env <;> rfl

theorem set (linked : store.Linked) (env : Env) (name : String) (value : Value) :
    (store.set env name value).2.Linked := by
  rw [Linked, outer?_set, chain_set]
  exact linked

theorem setAll (linked : store.Linked) (env : Env) (bindings : List (String × Value)) :
    (store.setAll env bindings).Linked := by
  induction bindings generalizing store with
  | nil => exact linked
  | cons binding rest ih => exact ih (linked.set env binding.1 binding.2)

/-- A new scope hangs on an existing chain, or on none. -/
theorem openScope (linked : store.Linked) (closed : store.Closed) {around : List Env}
    (hangs : ∀ first, around.head? = some first →
      first < store.scopes.size ∧ around = store.chain first) :
    (store.openScope around).2.Linked := by
  have stays := store.stays_openScope around
  intro env outer link
  have inRange := lt_size_of_outer? link
  rw [size_openScope] at inRange
  rcases Nat.lt_succ_iff_lt_or_eq.mp inRange with existing | rfl
  · rw [stays.outer?_eq existing] at link
    have outerExisting := Nat.lt_trans (closed.outer?_lt link) existing
    rw [stays.chain_eq existing, stays.chain_eq outerExisting]
    exact linked env outer link
  · rw [outer?_openScope] at link
    rcases hangs outer link with ⟨outerExisting, rfl⟩
    rw [chain_openScope, stays.chain_eq outerExisting]

theorem newEnv (linked : store.Linked) (closed : store.Closed) : store.newEnv.2.Linked :=
  linked.openScope closed nofun

theorem enclose (linked : store.Linked) (closed : store.Closed) {env : Env}
    (existing : env < store.scopes.size) : (store.enclose env).2.Linked := by
  refine linked.openScope closed fun first isFirst => ?_
  cases isFirst
  exact ⟨existing, rfl⟩

end Linked

end Store

theorem Machine.linked_inside {machine : Machine} (linked : machine.store.Linked)
    (closed : machine.store.Closed) {env : Env} (existing : env < machine.store.scopes.size)
    (params : List String) (args : List Value) : (machine.inside env params args).store.Linked :=
  (linked.enclose closed existing).setAll (machine.store.enclose env).1 (params.zip args)

/-- Evaluations open scopes inside of existing ones only. -/
def Contract.linked : Contract where
  pre machine := machine.Closed ∧ machine.store.Linked
  fits machine value := value.Known machine.store
  post machine value later := Contract.closed.post machine value later ∧ later.store.Linked
  applied machine value later := Contract.closed.applied machine value later ∧ later.store.Linked
  settled pre post := ⟨Contract.closed.settled pre.1 post.1, post.2⟩
  ready pre post plain := Contract.closed.ready pre.1 post.1 plain
  keeps pre post fits := Contract.closed.keeps pre.1 post.1 fits
  trans earlier plain next := ⟨Contract.closed.trans earlier.1 plain next.1, next.2⟩
  arrived post := ⟨Contract.closed.arrived post.1, post.2⟩
  post_of_applied applied := ⟨Contract.closed.post_of_applied applied.1, applied.2⟩
  atomic pre atomic := Contract.closed.atomic pre.1 atomic
  value pre fits := ⟨Contract.closed.value pre.1 fits, pre.2⟩
  returned pre fits := ⟨Contract.closed.returned pre.1 fits, pre.2⟩
  made pre made := ⟨Contract.closed.made pre.1 made, pre.2⟩
  failed fault pre := ⟨Contract.closed.failed fault pre.1, pre.2⟩
  close params body pre := ⟨Contract.closed.close params body pre.1, pre.2⟩
  lookup pre found := ⟨Contract.closed.lookup pre.1 found, pre.2⟩
  bind name pre fits := ⟨Contract.closed.bind name pre.1 fits, pre.2.set _ name _⟩
  answer pre calleeFits argsFit made :=
    ⟨Contract.closed.answer pre.1 calleeFits argsFit made, pre.2⟩
  refuse fault pre calleeFits argsFit :=
    ⟨Contract.closed.refuse fault pre.1 calleeFits argsFit, pre.2⟩
  enter {machine identity params body env args} pre calleeFits argsFit sameLength := by
    have linked : (machine.applying (.fn identity params body env) args).store.Linked := pre.2
    have closed := pre.1.applying (.fn identity params body env) args
    exact ⟨Contract.closed.enter pre.1 calleeFits argsFit sameLength,
      Machine.linked_inside linked closed.closed calleeFits.2 params args⟩
  leave pre calleeFits argsFit sameLength post :=
    ⟨Contract.closed.leave pre.1 calleeFits argsFit sameLength post.1, post.2⟩

namespace Store

/-! ### Lookups -/

section

variable {store : Store} {env : Env}

theorem find?_eq_findSome? (store : Store) (name : String) (envs : List Env) :
    store.find? name envs = envs.findSome? (store.bound? · name) := by
  induction envs with
  | nil => rfl
  | cons env outer ih =>
      rw [find?, List.findSome?_cons, ih]
      cases store.bound? env name <;> rfl

theorem Logged.get?_eq (logged : store.Logged) (env : Env) (name : String) :
    store.get? env name =
      (store.chain env).findSome? fun scope => latest? store.log.toList scope name := by
  rw [get?, find?_eq_findSome?]
  simp only [logged _ name]

/-- A new binding is found where no other one is in front of it. -/
theorem SeenIn.find?_set {name : String} {envs : List Env} (seen : store.SeenIn name env envs)
    (existing : env < store.scopes.size) (value : Value) :
    (store.set env name value).2.find? name envs = some value := by
  rcases seen with ⟨inner, outer, rfl, unbound⟩
  induction inner with
  | nil => simp [find?, bound?_set, existing]
  | cons first rest ih =>
      rcases List.forall_mem_cons.mp unbound with ⟨firstUnbound, restUnbound⟩
      rw [List.cons_append, find?, bound?_set, firstUnbound, ih restUnbound]
      split <;> simp_all

/-- Other lookups find what they found before. -/
theorem seenIn_of_find?_set {name key : String} {value : Value} {envs : List Env}
    (changed : (store.set env name value).2.find? key envs ≠ store.find? key envs) :
    key = name ∧ store.SeenIn name env envs := by
  induction envs with
  | nil => exact absurd rfl changed
  | cons first rest ih =>
      rw [find?, find?, bound?_set] at changed
      by_cases bindsHere : env < store.scopes.size ∧ env = first ∧ name = key
      · rcases bindsHere with ⟨-, rfl, rfl⟩
        exact ⟨rfl, [], rest, rfl, List.forall_mem_nil _⟩
      · rw [if_neg bindsHere] at changed
        cases found : store.bound? first key with
        | some held => simp [found] at changed
        | none =>
            simp only [found] at changed
            rcases ih changed with ⟨rfl, inner, outer, rfl, unbound⟩
            exact ⟨rfl, first :: inner, outer, rfl, List.forall_mem_cons.mpr ⟨found, unbound⟩⟩

end

/-! ### Stores in use -/

/-- What may be done with a store: environments are opened, objects are made, names are bound, and
programs are evaluated. -/
inductive Use : Store → Store → Prop where
  | newEnv {store : Store} : Use store store.newEnv.2
  | enclose {store : Store} {env : Env} (existing : env < store.scopes.size) :
      Use store (store.enclose env).2
  | issue {store : Store} : Use store { store with fresh := store.fresh + 1 }
  | set {store : Store} {env : Env} {value : Value} (existing : env < store.scopes.size)
      (name : String) (known : value.Known store) : Use store (store.set env name value).2
  | eval {store later : Store} {env : Env} {fuel : Nat} {program : Program} {value : Value}
      (existing : env < store.scopes.size)
      (ends : program.eval fuel env store = some (value, later)) : Use store later

/-- The second store is what the first one has become by some uses. -/
def Used : Store → Store → Prop := Relation.ReflTransGen Use

/-- What is relied on in stores, and kept by all uses. -/
structure Sound (store : Store) : Prop where
  closed : store.Closed
  linked : store.Linked
  logged : store.Logged

theorem sound_empty : Store.empty.Sound where
  closed := closed_empty
  linked := by simp [Linked, outer?, empty]
  logged := logged_empty

section

variable {store later : Store}

theorem Use.sound (use : store.Use later) (sound : store.Sound) : later.Sound := by
  rcases sound with ⟨closed, linked, logged⟩
  cases use with
  | newEnv =>
      exact ⟨closed.openScope (List.forall_mem_nil _), linked.newEnv closed, logged.openScope _⟩
  | enclose existing =>
      exact ⟨closed.enclose existing, linked.enclose closed existing, logged.openScope _⟩
  | issue =>
      refine ⟨⟨closed.outer, fun env name value found => ?_⟩, linked, logged⟩
      exact (closed.bound env name value found).mono (.issue store)
  | set existing name known =>
      exact ⟨closed.set _ name known, linked.set _ name _, logged.set existing name _⟩
  | @eval _ env fuel program value existing ends =>
      rcases Option.map_eq_some_iff.mp ends with ⟨⟨_, last⟩, ran, answered⟩
      cases answered
      have linkedBefore : Contract.linked.pre ⟨env, store⟩ := ⟨⟨existing, closed⟩, linked⟩
      have loggedBefore : Contract.logged.pre ⟨env, store⟩ := ⟨existing, logged⟩
      have kept := Contract.meets_program fuel program linkedBefore ran
      have told := Contract.meets_program fuel program loggedBefore ran
      exact ⟨kept.1.1.closed.closed, kept.2, told.logged⟩

theorem Use.stays (use : store.Use later) : store.Stays later := by
  cases use with
  | newEnv | enclose => exact store.stays_openScope _
  | issue => exact store.stays_issue
  | set => exact store.stays_set _ _ _
  | @eval _ env fuel program _ _ ends =>
      rcases Option.map_eq_some_iff.mp ends with ⟨⟨_, last⟩, ran, answered⟩
      cases answered
      have framed := @Evaluation.frame ⟨fuel, .program program, ⟨env, store⟩⟩ _ _ ran
      exact framed.2.mono fun _ _ => trivial

theorem Used.sound (used : store.Used later) (sound : store.Sound) : later.Sound := by
  induction used with
  | refl => exact sound
  | tail _ use ih => exact use.sound ih

theorem Used.stays (used : store.Used later) : store.Stays later := by
  induction used with
  | refl => exact .refl _
  | tail _ use ih => exact ih.trans use.stays

end

/-- Environments are nested, and map names to values. -/
structure ScopedMap (store : Store) : Prop where
  /-- No environment is inside itself. -/
  acyclic : ∀ env,
    ¬ Relation.TransGen (fun inner outer => store.outer? inner = some outer) env env
  /-- The chain of an environment goes on with that of the one around it. -/
  chain : ∀ env, store.chain env = env :: (store.outer? env).elim [] store.chain
  /-- A global environment has depth one, and each one inside is deeper by one. -/
  depth : ∀ env, store.depth env = (store.chain env).length ∧
    store.depth env = (store.outer? env).elim 1 fun outer => 1 + store.depth outer
  /-- A new environment is global, or inside the one that it is meant to be inside. -/
  opened : store.newEnv.2.outer? store.newEnv.1 = none ∧
    ∀ env, (store.enclose env).2.outer? (store.enclose env).1 = some env
  /-- A name has the value that was bound to it last in the innermost environment that has one. -/
  get : ∀ env name, store.get? env name =
    (store.chain env).findSome? fun scope => latest? store.log.toList scope name
  /-- A new binding replaces what is found, from where it is the first one that is seen. -/
  set : ∀ env < store.scopes.size, ∀ name value, (store.set env name value).1 = value ∧
    ∀ other, (store.SeenIn name env (store.chain other) →
        (store.set env name value).2.get? other name = some value) ∧
      ∀ key, (store.set env name value).2.get? other key ≠ store.get? other key →
        key = name ∧ store.SeenIn name env (store.chain other)

theorem Sound.scopedMap {store : Store} (sound : store.Sound) : store.ScopedMap where
  acyclic env cycle := Nat.lt_irrefl env (sound.closed.lt_of_inside cycle)
  chain := sound.linked.chain_eq
  depth env := ⟨rfl, sound.linked.depth_eq env⟩
  opened := ⟨outer?_openScope store [], fun env => outer?_openScope store (store.chain env)⟩
  get := sound.logged.get?_eq
  set env existing name value := by
    refine ⟨rfl, fun other => ⟨fun seen => ?_, fun key changed => ?_⟩⟩
    · rw [get?, chain_set]
      exact seen.find?_set existing value
    · rw [get?, chain_set] at changed
      exact seenIn_of_find?_set changed

/-- Whatever has been done with a store, names have the values in it that nested environments give
them. Whatever is done with it afterwards, its environments stay inside the same others. -/
theorem scopedMap_of_used {store : Store} (used : Store.empty.Used store) :
    store.ScopedMap ∧
      ∀ later, store.Used later → ∀ env < store.scopes.size,
        later.outer? env = store.outer? env ∧ later.chain env = store.chain env ∧
          later.depth env = store.depth env := by
  refine ⟨(used.sound sound_empty).scopedMap, fun later usedOn env existing => ?_⟩
  have stays := usedOn.stays
  exact ⟨stays.outer?_eq existing, stays.chain_eq existing, stays.depth_eq existing⟩

/-- The program `let x = 2` is evaluated inside a global environment. When `x` is bound in that one
later, this is seen from there, and not from inside. -/
theorem scopedMap_of_shadowing :
    ∃ store, Store.empty.Used store ∧ store.ScopedMap ∧ store.outer? 1 = some 0 ∧
      (store.set 0 "x" (.int 3)).2.get? 0 "x" = some (.int 3) ∧
      (store.set 0 "x" (.int 3)).2.get? 1 "x" = some (.int 2) ∧
      (store.set 0 "x" (.int 3)).2.outer? 1 = some 0 := by
  let outer := Store.empty.newEnv.2
  let inner := (outer.enclose 0).2
  let store := (inner.set 1 "x" (.int 2)).2
  have evaluated : inner.Use store := by
    have ends : Program.eval 0 1 [.letBe "x" (.int 2)] inner = some (.null, store) := rfl
    exact .eval (by decide) ends
  have used : Store.empty.Used store :=
    ((Relation.ReflTransGen.single .newEnv).tail (.enclose (by decide))).tail evaluated
  have usedOn : store.Used (store.set 0 "x" (.int 3)).2 :=
    .single (.set (by decide) "x" trivial)
  rcases scopedMap_of_used used with ⟨nested, same⟩
  have seen := ((nested.set 0 (by decide) "x" (.int 3)).2 0).1 ⟨[], [], rfl, List.forall_mem_nil _⟩
  exact ⟨store, used, nested, rfl, seen, rfl, (same _ usedOn 1 (by decide)).1⟩

end Store

end Monkey
