import Monkey.Evaluation.Run

/-!
# What the operations of a store change

Each operation is described by what it does to the scopes, to the next identity and to the log, so
that later proofs need not look into it.
-/

namespace Monkey

namespace Store

@[simp]
theorem scopes_record (store : Store) (event : Event) : (store.record event).scopes = store.scopes :=
  rfl

@[simp]
theorem log_record (store : Store) (event : Event) :
    (store.record event).log.toList = store.log.toList ++ [event] := by
  simp [record]

@[simp]
theorem log_openScope (store : Store) (outer : List Env) :
    (store.openScope outer).2.log = store.log := rfl

@[simp]
theorem size_openScope (store : Store) (outer : List Env) :
    (store.openScope outer).2.scopes.size = store.scopes.size + 1 := by
  simp [openScope]

theorem getElem?_openScope (store : Store) (outer : List Env) {env : Env}
    (inside : env < store.scopes.size) :
    (store.openScope outer).2.scopes[env]? = store.scopes[env]? := by
  simp [openScope, Array.getElem?_push, Nat.ne_of_lt inside]

@[simp]
theorem log_set (store : Store) (env : Env) (name : String) (value : Value) :
    (store.set env name value).2.log.toList = store.log.toList ++ [.bound env name value] := by
  simp [set]

@[simp]
theorem size_set (store : Store) (env : Env) (name : String) (value : Value) :
    (store.set env name value).2.scopes.size = store.scopes.size := by
  simp [set]

theorem getElem?_set (store : Store) (env other : Env) (name : String) (value : Value) :
    (store.set env name value).2.scopes[other]? =
      if env = other then store.scopes[other]?.map (·.set name value) else store.scopes[other]? := by
  simp [set, Array.getElem?_modify]

@[simp]
theorem setAll_nil (store : Store) (env : Env) : store.setAll env [] = store := rfl

@[simp]
theorem setAll_cons (store : Store) (env : Env) (binding : String × Value)
    (rest : List (String × Value)) :
    store.setAll env (binding :: rest) = (store.set env binding.1 binding.2).2.setAll env rest :=
  rfl

@[simp]
theorem log_setAll (store : Store) (env : Env) (bindings : List (String × Value)) :
    (store.setAll env bindings).log.toList =
      store.log.toList ++ bindings.map fun binding => .bound env binding.1 binding.2 := by
  induction bindings generalizing store with
  | nil => simp
  | cons binding rest ih => simp [ih]

@[simp]
theorem size_setAll (store : Store) (env : Env) (bindings : List (String × Value)) :
    (store.setAll env bindings).scopes.size = store.scopes.size := by
  induction bindings generalizing store with
  | nil => rfl
  | cons binding rest ih => simp [ih]

theorem getElem?_setAll_of_ne (store : Store) {env other : Env} (distinct : env ≠ other)
    (bindings : List (String × Value)) :
    (store.setAll env bindings).scopes[other]? = store.scopes[other]? := by
  induction bindings generalizing store with
  | nil => rfl
  | cons binding rest ih => rw [setAll_cons, ih, getElem?_set, if_neg distinct]

/-! ### What scopes bind -/

@[simp]
theorem bound?_record (store : Store) (event : Event) : (store.record event).bound? = store.bound? :=
  rfl

/-- A new scope binds nothing. -/
@[simp]
theorem bound?_openScope (store : Store) (outer : List Env) :
    (store.openScope outer).2.bound? = store.bound? := by
  funext env name
  simp only [bound?, openScope, Array.getElem?_push]
  split
  · rename_i new
    simp [new]
  · rfl

/-- A binding is seen under its name, in its scope; all else is as before. -/
theorem bound?_set (store : Store) (env other : Env) (name key : String) (value : Value) :
    (store.set env name value).2.bound? other key =
      if env < store.scopes.size ∧ env = other ∧ name = key then some value
      else store.bound? other key := by
  rw [bound?, getElem?_set]
  by_cases sameEnv : env = other
  · subst sameEnv
    by_cases existing : env < store.scopes.size
    · by_cases sameName : name = key
      · subst sameName
        simp [existing]
      · simp [existing, sameName, bound?, Scope.get?_set_of_ne _ _ (Ne.symm sameName)]
    · simp [existing, bound?]
  · simp [sameEnv, bound?]

/-- What a name stands for is bound to it in some scope. -/
theorem bound?_of_find? {store : Store} {name : String} {value : Value} {envs : List Env}
    (found : store.find? name envs = some value) : ∃ env ∈ envs, store.bound? env name = some value := by
  induction envs with
  | nil => cases found
  | cons env outer ih =>
      rw [find?] at found
      split at found
      · rename_i held bound
        cases found
        exact ⟨env, by simp, bound⟩
      · rcases ih found with ⟨other, member, bound⟩
        exact ⟨other, by simp [member], bound⟩

/-- All values that names are bound to are of some kind. -/
def Binds (fits : Value → Prop) (store : Store) : Prop :=
  ∀ env name value, store.bound? env name = some value → fits value

namespace Binds

variable {fits : Value → Prop} {store : Store}

theorem mono (binds : store.Binds fits) {looser : Value → Prop}
    (fits_looser : ∀ value, fits value → looser value) : store.Binds looser :=
  fun env name value found => fits_looser value (binds env name value found)

theorem openScope (binds : store.Binds fits) (outer : List Env) :
    (store.openScope outer).2.Binds fits := by
  intro env name value found
  rw [bound?_openScope] at found
  exact binds env name value found

theorem set (binds : store.Binds fits) (env : Env) (name : String) {value : Value}
    (valueFits : fits value) : (store.set env name value).2.Binds fits := by
  intro other key held found
  rw [bound?_set] at found
  split at found
  · cases found
    exact valueFits
  · exact binds other key held found

theorem setAll (binds : store.Binds fits) (env : Env) {bindings : List (String × Value)}
    (bindingsFit : ∀ binding ∈ bindings, fits binding.2) :
    (store.setAll env bindings).Binds fits := by
  induction bindings generalizing store with
  | nil => exact binds
  | cons binding rest ih =>
      rcases List.forall_mem_cons.mp bindingsFit with ⟨first, others⟩
      exact ih (binds.set env binding.1 first) others

theorem get? (binds : store.Binds fits) {env : Env} {name : String} {value : Value}
    (found : store.get? env name = some value) : fits value := by
  rcases bound?_of_find? found with ⟨scope, _, bound⟩
  exact binds scope name value bound

theorem inside {machine : Machine} (binds : machine.store.Binds fits) (env : Env)
    (params : List String) {args : List Value} (argsFit : ∀ arg ∈ args, fits arg) :
    (machine.inside env params args).store.Binds fits := by
  have opened : (machine.store.enclose env).2.Binds fits := binds.openScope _
  apply opened.setAll
  intro binding member
  exact argsFit binding.2 (List.of_mem_zip member).2

end Binds

/-- A new environment in the empty store binds nothing. -/
theorem binds_start (fits : Value → Prop) : Store.empty.newEnv.2.Binds fits := by
  intro env name value found
  change (Store.empty.openScope []).2.bound? env name = some value at found
  rw [bound?_openScope] at found
  simp [bound?, Store.empty] at found

end Store

namespace Machine

@[simp]
theorem env_record (machine : Machine) (event : Event) : (machine.record event).env = machine.env :=
  rfl

@[simp]
theorem store_record (machine : Machine) (event : Event) :
    (machine.record event).store = machine.store.record event := rfl

@[simp]
theorem env_bind (machine : Machine) (name : String) (value : Value) :
    (machine.bind name value).env = machine.env := rfl

@[simp]
theorem store_bind (machine : Machine) (name : String) (value : Value) :
    (machine.bind name value).store = (machine.store.set machine.env name value).2 := rfl

@[simp]
theorem env_applying (machine : Machine) (callee : Value) (args : List Value) :
    (machine.applying callee args).env = machine.env := rfl

@[simp]
theorem scopes_applying (machine : Machine) (callee : Value) (args : List Value) :
    (machine.applying callee args).store.scopes = machine.store.scopes := rfl

@[simp]
theorem log_applying (machine : Machine) (callee : Value) (args : List Value) :
    (machine.applying callee args).store.log.toList =
      machine.store.log.toList ++ [.applied callee args, .entered] := by
  simp [applying]

@[simp]
theorem env_inside (machine : Machine) (env : Env) (params : List String) (args : List Value) :
    (machine.inside env params args).env = machine.store.scopes.size := rfl

@[simp]
theorem size_inside (machine : Machine) (env : Env) (params : List String) (args : List Value) :
    (machine.inside env params args).store.scopes.size = machine.store.scopes.size + 1 := by
  simp [inside, Store.enclose]

theorem log_inside (machine : Machine) (env : Env) (params : List String) (args : List Value) :
    (machine.inside env params args).store.log.toList =
      machine.store.log.toList ++
        (params.zip args).map (fun binding => .bound machine.store.scopes.size binding.1 binding.2) ++
        [.calling params.length
          ((machine.inside env params args).store.depth (machine.inside env params args).env)] := by
  simp only [inside, Store.log_record, Store.log_setAll, Store.enclose, Store.log_openScope]
  rfl

/-- A new environment leaves the existing scopes as they are. -/
theorem getElem?_inside (machine : Machine) (env : Env) (params : List String) (args : List Value)
    {other : Env} (existing : other < machine.store.scopes.size) :
    (machine.inside env params args).store.scopes[other]? = machine.store.scopes[other]? := by
  have distinct : (machine.store.enclose env).1 ≠ other := Nat.ne_of_gt existing
  simp only [inside, Store.scopes_record]
  rw [Store.getElem?_setAll_of_ne _ distinct, Store.enclose, Store.getElem?_openScope _ _ existing]

end Machine

/-! ### Runs one after the other -/

theorem Run.thenPlain_of_plain {first : Run} {next : Value → Run} {machine later : Machine}
    {value : Value} (ran : first machine = some (value, later)) (plain : value.isCarrier = false) :
    first.thenPlain next machine = next value later := by
  simp [thenPlain, ran, plain]

theorem Run.thenPlain_of_carrier {first : Run} {next : Value → Run} {machine later : Machine}
    {value : Value} (ran : first machine = some (value, later)) (carrier : value.isCarrier = true) :
    first.thenPlain next machine = some (value, later) := by
  simp [thenPlain, ran, carrier]

/-! ### Names -/

theorem Run.resolve_of_bound {machine : Machine} {name : String} {value : Value}
    (found : machine.store.get? machine.env name = some value) :
    Run.resolve name machine = Run.value value machine := by
  simp [Run.resolve, Store.resolve, found, Run.value]

theorem Run.resolve_of_unbound {machine : Machine} {name : String}
    (missing : machine.store.get? machine.env name = none) :
    Run.resolve name machine =
      Run.answer (fun fresh =>
        match Builtin.ofName? name with
        | some builtin => .ok (.builtin fresh builtin)
        | none => .error (.unboundName name)) machine := by
  simp only [Run.resolve, Store.resolve, missing]
  rfl

end Monkey
