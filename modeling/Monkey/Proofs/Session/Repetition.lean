import Monkey.Proofs.Evaluation.Binding
import Monkey.Proofs.Likeness.Trees

/-!
# Applying a function again

An application does the same whenever it is repeated, from whatever environment, unless a name has been
bound meanwhile in a scope that was there before. What has been made in between differs in numbers
only from what was there the first time.
-/

namespace Monkey

/-- The stores that evaluations of a session find or leave. -/
inductive Store.Reached : Store → Prop where
  | found {evaluation : Evaluation} (reached : evaluation.Reached) :
      Reached evaluation.machine.store
  | left {evaluation : Evaluation} {value : Value} {later : Machine}
      (reached : evaluation.Reached) (ends : evaluation.result? = some (value, later)) :
      Reached later.store

theorem Store.Reached.closed {store : Store} (reached : store.Reached) : store.Closed := by
  cases reached with
  | found reached =>
      have admits : Contract.closed.Admits _ :=
        Contract.admits_of_reached Machine.closed_start reached
      exact admits.pre.closed
  | left reached ends =>
      have admits : Contract.closed.Admits _ :=
        Contract.admits_of_reached Machine.closed_start reached
      exact (admits.post ends).1.closed.closed

/-- Two values, each with its store, that nobody can tell apart by looking at them: they have the same
type and the same texts, and functions have the same parameters, the same body text and equally deep
environments. -/
structure Value.Resembles (store : Store) (value : Value) (otherStore : Store) (other : Value) :
    Prop where
  typeName : value.typeName = other.typeName
  text : value.text = other.text
  code : value.code = other.code
  fn : ∀ identity params body env, value = .fn identity params body env →
    ∃ otherIdentity otherBody otherEnv, other = .fn otherIdentity params otherBody otherEnv ∧
      Program.text body = Program.text otherBody ∧ store.depth env = otherStore.depth otherEnv
  error : ∀ fault, value = .error fault → other = .error fault

theorem Value.Alike.resembles {likeness : Likeness} {pairing : Pairing} {value other : Value}
    {store otherStore : Store} (alike : value.Alike likeness pairing other)
    (stores : store.Alike likeness pairing otherStore) :
    value.Resembles store otherStore other := by
  refine ⟨alike.typeName_eq, alike.text_eq, alike.code_eq, ?_, ?_⟩
  · rintro identity params body env rfl
    cases alike with
    | fn _ bodies paired => exact ⟨_, _, _, rfl, likeness.text bodies, stores.depth_eq paired⟩
  · rintro fault rfl
    cases alike
    rfl

theorem Store.Intact.later {store first second : Store} (intact : store.Intact first)
    (later : first.Later second) {events : List Event}
    (log : second.log.toList = first.log.toList ++ events)
    (unbound : ∀ env name value, Event.bound env name value ∈ events → store.scopes.size ≤ env) :
    store.Intact second := by
  rcases later.went with ⟨happened, went⟩
  obtain rfl : happened = events := List.append_cancel_left (went.log.symm.trans log)
  refine ⟨intact.grows.trans went.grows, fun env existing => ?_⟩
  have stillExisting := Nat.lt_of_lt_of_le existing intact.grows.size
  rw [went.scopes.scope env stillExisting, intact.scopes env existing]
  rintro ⟨name, value, member⟩
  exact Nat.not_lt.mpr (unbound env name value member) existing

/-- An application that ends can be repeated at any later time, from any environment and whatever has
been evaluated meanwhile, as long as no name has been bound in a scope that existed at first. It ends
again, with a value that cannot be told from the first one, and with the same lines in the trace. -/
theorem Value.apply_again {store second : Store} (reached : store.Reached) {callee value : Value}
    {args : List Value} (known : callee.Known store) (argsKnown : ∀ arg ∈ args, arg.Known store)
    {fuel : Nat} {env : Env} {first : Machine}
    (ends : callee.apply fuel args ⟨env, store⟩ = some (value, first))
    (later : first.store.Later second) {events : List Event}
    (log : second.log.toList = first.store.log.toList ++ events)
    (unbound : ∀ env name value, Event.bound env name value ∈ events → store.scopes.size ≤ env)
    (otherEnv : Env) :
    ∃ again last, callee.apply fuel args ⟨otherEnv, second⟩ = some (again, last) ∧
      value.Resembles first.store last.store again ∧
        store.SameTrace second first.store last.store := by
  have spared : store.Intact first.store := Value.spares_apply fuel callee args ends
  have intact : store.Intact second := spared.later later log unbound
  -- The store of the first time and the later one are alike where every number stands for itself.
  have stores := reached.closed.alike.intact (.refl store) intact
  have agree : Agree .full store.diagonal ⟨env, store⟩ ⟨otherEnv, second⟩ _ _ :=
    callsAgree_apply Likeness.sound_full fuel stores known.alike
      (List.forall₂_same.mpr fun arg member => (argsKnown arg member).alike)
  rcases agree.of_ends ends with ⟨larger, again, last, repeated, endAlike⟩
  exact ⟨again, last, repeated, endAlike.value.resembles endAlike.store, endAlike.trace⟩

/-- A function that makes a string, and a function that gives this string. -/
def keeper : Value :=
  .fn 0 ["x"] [.letBe "s" (.str "a"), .expr (.fn ["y"] [.expr (.ident "s")])] 0

/-- What is made has other numbers when the function is applied again, from inside another application
of it. -/
theorem apply_again_keeper :
    ∃ store second, ∃ first last : Machine, store.Reached ∧
      keeper.apply 1 [.int 1] ⟨0, store⟩ = some (.fn 2 ["y"] [.expr (.ident "s")] 1, first) ∧
      keeper.apply 1 [.int 1] ⟨2, second⟩ = some (.fn 6 ["y"] [.expr (.ident "s")] 3, last) ∧
      (Value.fn 2 ["y"] [.expr (.ident "s")] 1).Resembles first.store last.store
        (.fn 6 ["y"] [.expr (.ident "s")] 3) := by
  have made : (Task.program [.letBe "f" (.fn ["x"]
      [.letBe "s" (.str "a"), .expr (.fn ["y"] [.expr (.ident "s")])])]).run 0
      ⟨0, Session.start.store⟩ =
        some (.null, ⟨0, ⟨#[⟨[], [("f", keeper)]⟩], 1, #[.bound 0 "f" keeper]⟩⟩) := rfl
  have reached := Store.Reached.left (.program .start 0 _) made
  have ends : keeper.apply 1 [.int 1]
      ⟨0, ⟨#[⟨[], [("f", keeper)]⟩], 1, #[.bound 0 "f" keeper]⟩⟩ =
        some (.fn 2 ["y"] [.expr (.ident "s")] 1, _) := rfl
  have unbound : ∀ env name value, Event.bound env name value ∈
      [.applied keeper [.bool true], .entered, .bound 2 "x" (.bool true), .calling 1 2,
        .bound 2 "s" (.str 3 "a"), .exited] → 1 ≤ env := by
    intro env name value member
    simp only [List.mem_cons, Event.bound.injEq, reduceCtorEq, List.not_mem_nil, false_or,
      or_false] at member
    rcases member with ⟨rfl, -⟩ | ⟨rfl, -⟩ <;> decide
  have known : keeper.Known ⟨#[⟨[], [("f", keeper)]⟩], 1, #[.bound 0 "f" keeper]⟩ :=
    ⟨Nat.zero_lt_one, Nat.zero_lt_one⟩
  rcases Value.apply_again reached known (by simp [Value.Known]) ends
    (@Task.later_of_run 1 (.apply keeper [.bool true]) ⟨0, _⟩ _ _ rfl) rfl unbound 2 with
    ⟨again, last, repeated, resembles, -⟩
  obtain rfl : Value.fn 6 ["y"] [.expr (.ident "s")] 3 = again :=
    congrArg Prod.fst (Option.some.inj repeated)
  exact ⟨_, _, _, _, reached, ends, repeated, resembles⟩

end Monkey
