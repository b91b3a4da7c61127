import Monkey.Proofs.Evaluation.Task
import Monkey.Proofs.Store.Basic

/-!
# Frames

An evaluation binds names in one of the scopes that it finds only: that of the current environment.
An application binds names in none of them, since the body of a function is evaluated in a new
environment. The scopes around a scope never change, and neither does the current environment, as
seen from outside.
-/

namespace Monkey

/-- The second scopes are the first ones and perhaps new ones. Bindings have changed only in those
that are `touched`. -/
structure Scope.Frame (touched : Env → Prop) (scopes later : Array Scope) : Prop where
  size : scopes.size ≤ later.size
  outer : ∀ env < scopes.size, later[env]?.map (·.outer) = scopes[env]?.map (·.outer)
  scope : ∀ env < scopes.size, ¬ touched env → later[env]? = scopes[env]?

namespace Scope.Frame

variable {touched : Env → Prop} {first second third : Array Scope}

/-- Where no existing scope changes, any scopes may count as touched. -/
theorem of_same (size : first.size ≤ second.size)
    (same : ∀ env < first.size, second[env]? = first[env]?) : Scope.Frame touched first second :=
  ⟨size, fun env existing => by rw [same env existing], fun env existing _ => same env existing⟩

theorem refl (scopes : Array Scope) : Scope.Frame touched scopes scopes :=
  of_same (Nat.le_refl _) fun _ _ => rfl

theorem trans (earlier : Scope.Frame touched first second)
    (next : Scope.Frame touched second third) : Scope.Frame touched first third := by
  refine ⟨Nat.le_trans earlier.size next.size, fun env existing => ?_,
    fun env existing untouched => ?_⟩
  · have stillExisting := Nat.lt_of_lt_of_le existing earlier.size
    rw [next.outer env stillExisting, earlier.outer env existing]
  · have stillExisting := Nat.lt_of_lt_of_le existing earlier.size
    rw [next.scope env stillExisting untouched, earlier.scope env existing untouched]

theorem mono {touches : Env → Prop} (frame : Scope.Frame touched first second)
    (wider : ∀ env, touched env → touches env) : Scope.Frame touches first second :=
  ⟨frame.size, frame.outer,
    fun env existing untouched => frame.scope env existing fun touch => untouched (wider env touch)⟩

/-- What touches no scope may count as touching any. -/
theorem widen (frame : Scope.Frame (fun _ => False) first second) :
    Scope.Frame touched first second :=
  ⟨frame.size, frame.outer, fun env existing _ => frame.scope env existing id⟩

end Scope.Frame

/-- A binding touches the scope in which it is made. -/
theorem Store.frame_set (store : Store) (env : Env) (name : String) (value : Value) :
    Scope.Frame (· = env) store.scopes (store.set env name value).2.scopes := by
  refine ⟨by simp, fun other _ => ?_, fun other _ untouched => ?_⟩
  · rw [getElem?_set]
    split <;> simp [Function.comp_def]
  · rw [getElem?_set, if_neg (Ne.symm untouched)]

/-- What touches the scope of a function body only, touches none of the scopes before. -/
theorem Machine.frame_inside {machine : Machine} {later : Array Scope} {env : Env}
    {params : List String} {args : List Value}
    (frame : Scope.Frame (· = machine.store.scopes.size)
      (machine.inside env params args).store.scopes later) :
    Scope.Frame (fun _ => False) machine.store.scopes later := by
  have entered : machine.store.scopes.size ≤ (machine.inside env params args).store.scopes.size := by
    simp
  refine .of_same (Nat.le_trans entered frame.size) fun other existing => ?_
  rw [frame.scope other (Nat.lt_of_lt_of_le existing entered) (Nat.ne_of_lt existing),
    getElem?_inside _ _ _ _ existing]

/-- Evaluations keep the current environment and touch its scope only; applications touch no
scope. -/
def Contract.frame : Contract where
  pre _ := True
  fits _ _ := True
  post machine _ later :=
    later.env = machine.env ∧
      Scope.Frame (· = machine.env) machine.store.scopes later.store.scopes
  applied machine _ later :=
    later.env = machine.env ∧ Scope.Frame (fun _ => False) machine.store.scopes later.store.scopes
  settled _ _ := trivial
  ready _ _ _ := trivial
  keeps _ _ _ := trivial
  trans earlier _ next := ⟨next.1.trans earlier.1, earlier.2.trans (earlier.1 ▸ next.2)⟩
  arrived post := post
  post_of_applied applied := ⟨applied.1, applied.2.widen⟩
  atomic _ _ := trivial
  value _ _ := ⟨rfl, .refl _⟩
  returned _ _ := ⟨rfl, .refl _⟩
  made _ _ := ⟨rfl, .refl _⟩
  failed _ _ := ⟨rfl, .refl _⟩
  close _ _ _ := ⟨rfl, .refl _⟩
  lookup _ _ := ⟨rfl, .refl _⟩
  bind name _ _ := ⟨rfl, Store.frame_set _ _ name _⟩
  answer _ _ _ _ := ⟨rfl, .refl _⟩
  refuse _ _ _ _ := ⟨rfl, .refl _⟩
  enter _ _ _ _ := trivial
  leave {machine _ _ _ _ _ args _} _ _ _ _ post :=
    ⟨rfl, @Machine.frame_inside (machine.applying _ args) _ _ _ _ post.2⟩

/-- What an evaluation leaves of the machine that it finds. -/
theorem Evaluation.frame {evaluation : Evaluation} {value : Value} {later : Machine}
    (ends : evaluation.result? = some (value, later)) :
    later.env = evaluation.machine.env ∧
      Scope.Frame (· = evaluation.machine.env) evaluation.machine.store.scopes later.store.scopes := by
  have admits : Contract.frame.Admits evaluation := by
    refine ⟨trivial, ?_⟩
    rcases evaluation with ⟨_, task, _⟩
    cases task <;> simp [Contract.FitsTask, Contract.frame]
  exact admits.post ends

/-- The current environment is the same again after every evaluation. Each scope that the evaluation
finds stays inside the same scopes, and binds what it bound before, unless it is that of the current
environment; where a value is applied, that one is no exception. -/
theorem Task.scope_of_run {fuel : Nat} {task : Task} {machine later : Machine} {value : Value}
    (ends : task.run fuel machine = some (value, later)) :
    later.env = machine.env ∧
      ∀ env before, machine.store.scopes[env]? = some before →
        ∃ after, later.store.scopes[env]? = some after ∧ after.outer = before.outer ∧
          ((env ≠ machine.env ∨ ∃ callee args, task = .apply callee args) →
            after.bindings = before.bindings) := by
  have framed := @Evaluation.frame ⟨fuel, task, machine⟩ value later ends
  refine ⟨framed.1, fun env before found => ?_⟩
  rcases Array.getElem?_eq_some_iff.mp found with ⟨existing, _⟩
  have outer := framed.2.outer env existing
  rw [found, Option.map_some, Option.map_eq_some_iff] at outer
  rcases outer with ⟨after, stillFound, sameOuter⟩
  refine ⟨after, stillFound, sameOuter, ?_⟩
  have same : later.store.scopes[env]? = machine.store.scopes[env]? → after = before := by
    intro unchanged
    rw [stillFound, found] at unchanged
    exact Option.some.inj unchanged
  rintro (otherEnv | ⟨callee, args, rfl⟩)
  · rw [same (framed.2.scope env existing otherEnv)]
  · have applied : Contract.frame.applied machine value later :=
      Contract.calls_apply fuel trivial trivial (fun _ _ => trivial) ends
    rw [same (applied.2.scope env existing id)]

/-- A function body that binds a name of the global scope leaves that scope as it is. -/
theorem scope_of_shadowing_body :
    ∃ value later,
      (Task.apply (.fn 0 ["x"] [.letBe "x" (.int 2), .expr (.ident "x")] 0) [.int 1]).run 1
          ⟨0, ⟨#[⟨[], [("x", .int 0)]⟩], 1, #[]⟩⟩ = some (value, later) ∧
        later.env = 0 ∧
          ∃ after, later.store.scopes[0]? = some after ∧ after.bindings = [("x", .int 0)] := by
  have ends :
      (Task.apply (.fn 0 ["x"] [.letBe "x" (.int 2), .expr (.ident "x")] 0) [.int 1]).run 1
        ⟨0, ⟨#[⟨[], [("x", .int 0)]⟩], 1, #[]⟩⟩ = some (.int 2, _) := rfl
  have framed := Task.scope_of_run ends
  rcases framed.2 0 _ rfl with ⟨after, found, -, same⟩
  exact ⟨_, _, ends, framed.1, after, found, same (.inr ⟨_, _, rfl⟩)⟩

end Monkey
