import Monkey.Proofs.Likeness.Store

/-!
# Evaluations that are alike

Evaluations that agree end both or none of them, and then with like values, on machines that are alike
again, and with the same lines in the trace. What they have made meanwhile is paired in addition.
Applications do not even ask for like environments: it is enough that the stores, the functions and the
arguments are alike.
-/

namespace Monkey

/-! ### The trace -/

/-- The lines of the trace so far. -/
def Store.lines (store : Store) : List String := store.log.toList.filterMap Event.line?

namespace Store

@[simp]
theorem lines_record (store : Store) (event : Event) :
    (store.record event).lines = store.lines ++ event.line?.toList := by
  cases line : event.line? <;> simp [lines, line]

@[simp]
theorem lines_set (store : Store) (env : Env) (name : String) (value : Value) :
    (store.set env name value).2.lines = store.lines := by
  simp [lines, Event.line?]

/-- Both stores have added the same lines to their traces. -/
def SameTrace (store other later otherLater : Store) : Prop :=
  ∃ lines, later.lines = store.lines ++ lines ∧ otherLater.lines = other.lines ++ lines

namespace SameTrace

theorem silent {store other later otherLater : Store} (same : later.lines = store.lines)
    (otherSame : otherLater.lines = other.lines) : SameTrace store other later otherLater :=
  ⟨[], by rw [same, List.append_nil], by rw [otherSame, List.append_nil]⟩

theorem trans {first other second otherSecond third otherThird : Store}
    (earlier : SameTrace first other second otherSecond)
    (next : SameTrace second otherSecond third otherThird) : SameTrace first other third otherThird := by
  rcases earlier with ⟨lines, log, otherLog⟩
  rcases next with ⟨more, moreLog, otherMoreLog⟩
  exact ⟨lines ++ more, by rw [moreLog, log, List.append_assoc],
    by rw [otherMoreLog, otherLog, List.append_assoc]⟩

theorem record (store other : Store) {event otherEvent : Event}
    (same : event.line? = otherEvent.line?) :
    SameTrace store other (store.record event) (other.record otherEvent) :=
  ⟨event.line?.toList, lines_record store event, by rw [lines_record, same]⟩

end SameTrace

end Store

/-! ### Agreement -/

section

variable (likeness : Likeness) (pairing : Pairing)

/-- Two machines have paired environments and like stores. -/
structure Machine.Alike (machine other : Machine) : Prop where
  env : pairing.envs machine.env other.env
  store : machine.store.Alike likeness pairing other.store

/-- From the first machines, two evaluations have ended alike. The pairing has been extended by what
they have made. -/
structure EndAlike (larger : Pairing) (machine other : Machine) (ended otherEnded : Value × Machine) :
    Prop where
  within : pairing.Within larger
  value : ended.1.Alike likeness larger otherEnded.1
  store : ended.2.store.Alike likeness larger otherEnded.2.store
  env : ended.2.env = machine.env
  otherEnv : otherEnded.2.env = other.env
  trace : machine.store.SameTrace other.store ended.2.store otherEnded.2.store

/-- Either none of two runs ends, or they end alike. -/
def Agree (machine other : Machine) (run otherRun : Run) : Prop :=
  Option.Rel (fun ended otherEnded =>
    ∃ larger, EndAlike likeness pairing larger machine other ended otherEnded)
    (run machine) (otherRun other)

/-- Applications of like values to like arguments agree. -/
def CallsAgree (call otherCall : Value → List Value → Run) : Prop :=
  ∀ ⦃pairing : Pairing⦄ ⦃machine other : Machine⦄ ⦃callee otherCallee : Value⦄
    ⦃args otherArgs : List Value⦄,
    machine.store.Alike likeness pairing other.store → callee.Alike likeness pairing otherCallee →
      List.Forall₂ (Value.Alike likeness pairing) args otherArgs →
        Agree likeness pairing machine other (call callee args) (otherCall otherCallee otherArgs)

end

variable {likeness : Likeness} {pairing : Pairing} {machine other : Machine}

theorem Machine.Alike.after {larger : Pairing} {later otherLater : Machine}
    {value otherValue : Value} (alike : machine.Alike likeness pairing other)
    (ended : EndAlike likeness pairing larger machine other (value, later) (otherValue, otherLater)) :
    later.Alike likeness larger otherLater := by
  refine ⟨?_, ended.store⟩
  rw [ended.env, ended.otherEnv]
  exact ended.within.envs alike.env

namespace EndAlike

theorem trans {larger largest : Pairing} {value otherValue : Value} {later otherLater : Machine}
    {last otherLast : Value × Machine}
    (earlier : EndAlike likeness pairing larger machine other (value, later)
      (otherValue, otherLater))
    (next : EndAlike likeness larger largest later otherLater last otherLast) :
    EndAlike likeness pairing largest machine other last otherLast where
  within := earlier.within.trans next.within
  value := next.value
  store := next.store
  env := next.env.trans earlier.env
  otherEnv := next.otherEnv.trans earlier.otherEnv
  trace := earlier.trace.trans next.trace

end EndAlike

namespace Agree

/-- Where the first run ends, the other one ends alike. -/
theorem of_ends {run otherRun : Run} (agree : Agree likeness pairing machine other run otherRun)
    {value : Value} {later : Machine} (ends : run machine = some (value, later)) :
    ∃ larger otherValue otherLater, otherRun other = some (otherValue, otherLater) ∧
      EndAlike likeness pairing larger machine other (value, later) (otherValue, otherLater) := by
  unfold Agree at agree
  rw [ends] at agree
  generalize otherRun other = otherEnded at agree
  rcases agree with @⟨_, ⟨otherValue, otherLater⟩, larger, endAlike⟩
  exact ⟨larger, otherValue, otherLater, rfl, endAlike⟩

theorem thenPlain {first otherFirst : Run} {next otherNext : Value → Run}
    (alike : machine.Alike likeness pairing other)
    (firstAgree : Agree likeness pairing machine other first otherFirst)
    (nextAgree : ∀ ⦃larger : Pairing⦄ ⦃value otherValue : Value⦄ ⦃later otherLater : Machine⦄,
      pairing.Within larger → value.Alike likeness larger otherValue →
        later.Alike likeness larger otherLater →
          Agree likeness larger later otherLater (next value) (otherNext otherValue)) :
    Agree likeness pairing machine other (first.thenPlain next)
      (otherFirst.thenPlain otherNext) := by
  unfold Agree at firstAgree
  simp only [Agree, Run.thenPlain]
  generalize first machine = ended, otherFirst other = otherEnded at firstAgree
  rcases firstAgree with @⟨⟨value, later⟩, ⟨otherValue, otherLater⟩, larger, endAlike⟩ | _
  · have sameCarrier : value.isCarrier = otherValue.isCarrier := endAlike.value.isCarrier_eq
    by_cases carrier : value.isCarrier = true
    · simp only [carrier, ← sameCarrier, if_true]
      exact .some ⟨larger, endAlike⟩
    · simp only [carrier, ← sameCarrier, Bool.false_eq_true, if_false]
      have nextEnds := nextAgree endAlike.within endAlike.value (alike.after endAlike)
      refine nextEnds.mono fun _ _ related => ?_
      rcases related with ⟨largest, nextAlike⟩
      exact ⟨largest, endAlike.trans nextAlike⟩
  · exact .none

theorem value (alike : machine.Alike likeness pairing other) {value otherValue : Value}
    (valueAlike : value.Alike likeness pairing otherValue) :
    Agree likeness pairing machine other (.value value) (.value otherValue) :=
  .some ⟨pairing, .refl _, valueAlike, alike.store, rfl, rfl, .silent rfl rfl⟩

theorem answer {make otherMake : Nat → Except Fault Value}
    (alike : machine.store.Alike likeness pairing other.store)
    (makes : ∀ ⦃larger : Pairing⦄, pairing.Within larger → Relator.BiUnique larger.ids →
      larger.ids machine.store.fresh other.store.fresh →
        Answer.Alike likeness larger (make machine.store.fresh) (otherMake other.store.fresh)) :
    Agree likeness pairing machine other (.answer make) (.answer otherMake) := by
  have issued := alike.issue
  have made := makes (pairing.within_withId _ _) issued.ids.unique (.inr ⟨rfl, rfl⟩)
  simp only [Agree, Run.answer, Store.answer]
  generalize make machine.store.fresh = answered, otherMake other.store.fresh = otherAnswered
    at made
  cases made with
  | ok valueAlike =>
      exact .some ⟨_, pairing.within_withId _ _, valueAlike, issued, rfl, rfl, .silent rfl rfl⟩
  | error fault =>
      exact .some ⟨pairing, .refl _, .error fault, alike.record _ _, rfl, rfl, .record _ _ rfl⟩

theorem refuse (alike : machine.store.Alike likeness pairing other.store) (fault : Fault) :
    Agree likeness pairing machine other (.answer fun _ => .error fault)
      (.answer fun _ => .error fault) :=
  answer alike fun _ _ _ _ => .error fault

theorem resolve (alike : machine.Alike likeness pairing other) {name : String}
    (seen : likeness.names name) :
    Agree likeness pairing machine other (.resolve name) (.resolve name) := by
  have held := alike.store.get? alike.env seen
  generalize found : machine.store.get? machine.env name = value, otherFound :
    other.store.get? other.env name = otherValue at held
  cases held with
  | some valueAlike =>
      rw [Agree, Run.resolve_of_bound found, Run.resolve_of_bound otherFound]
      exact Agree.value alike valueAlike
  | none =>
      rw [Agree, Run.resolve_of_unbound found, Run.resolve_of_unbound otherFound]
      refine answer alike.store fun larger _ _ paired => ?_
      split
      · exact .ok (.builtin _ paired)
      · exact .error _

theorem bind (alike : machine.Alike likeness pairing other) (name : String)
    {value otherValue : Value} (valueAlike : value.Alike likeness pairing otherValue) :
    Agree likeness pairing machine other (.bind name value) (.bind name otherValue) := by
  refine .some ⟨pairing, .refl _, .null, alike.store.set alike.env name valueAlike, rfl, rfl, ?_⟩
  exact .silent (Store.lines_set _ _ _ _) (Store.lines_set _ _ _ _)

theorem close (alike : machine.Alike likeness pairing other) (params : List String)
    {body otherBody : Program} (bodies : likeness.bodies body otherBody) :
    Agree likeness pairing machine other (.close params body) (.close params otherBody) :=
  answer alike.store fun _ within _ paired => .ok (.fn paired bodies (within.envs alike.env))

end Agree

/-! ### Applications -/

/-- Where the bodies of a likeness are evaluated, they agree. -/
def Likeness.Sound (likeness : Likeness) : Prop :=
  ∀ ⦃call otherCall : Value → List Value → Run⦄, CallsAgree likeness call otherCall →
    ∀ ⦃body otherBody : Program⦄, likeness.bodies body otherBody →
      ∀ ⦃pairing : Pairing⦄ ⦃machine other : Machine⦄, machine.Alike likeness pairing other →
        Agree likeness pairing machine other (Program.evalFrom call .null body)
          (Program.evalFrom otherCall .null otherBody)

namespace Machine

theorem alike_applying (alike : machine.store.Alike likeness pairing other.store)
    (callee otherCallee : Value) (args otherArgs : List Value) :
    (machine.applying callee args).store.Alike likeness pairing
      (other.applying otherCallee otherArgs).store :=
  (alike.record _ _).record _ _

theorem alike_inside (alike : machine.store.Alike likeness pairing other.store)
    {env otherEnv : Env} (paired : pairing.envs env otherEnv) (params : List String)
    {args otherArgs : List Value}
    (argsAlike : List.Forall₂ (Value.Alike likeness pairing) args otherArgs) :
    (machine.inside env params args).Alike likeness
      (pairing.withEnv machine.store.scopes.size other.store.scopes.size)
      (other.inside otherEnv params otherArgs) := by
  have within := pairing.within_withEnv machine.store.scopes.size other.store.scopes.size
  have newPaired : (pairing.withEnv machine.store.scopes.size other.store.scopes.size).envs
      machine.store.scopes.size other.store.scopes.size := .inr ⟨rfl, rfl⟩
  have bound := (alike.openScope (alike.chain paired)).setAll newPaired params
    (argsAlike.imp fun _ _ argAlike => argAlike.mono within)
  exact ⟨newPaired, bound.record _ _⟩

theorem lines_inside (machine : Machine) (env : Env) (params : List String) (args : List Value) :
    (machine.inside env params args).store.lines =
      machine.store.lines ++ (Event.calling params.length
        ((machine.inside env params args).store.depth
          (machine.inside env params args).env)).line?.toList := by
  simp [Store.lines, log_inside, List.filterMap_map, Function.comp_def, Event.line?]

theorem sameTrace_inside (alike : machine.store.Alike likeness pairing other.store)
    {env otherEnv : Env} (paired : pairing.envs env otherEnv) (params : List String)
    {args otherArgs : List Value}
    (argsAlike : List.Forall₂ (Value.Alike likeness pairing) args otherArgs) :
    machine.store.SameTrace other.store (machine.inside env params args).store
      (other.inside otherEnv params otherArgs).store := by
  have inside := alike_inside alike paired params argsAlike
  have depth := inside.store.depth_eq inside.env
  exact ⟨_, lines_inside machine env params args, by rw [lines_inside, depth]⟩

theorem sameTrace_applying (machine other : Machine) (callee otherCallee : Value)
    (args otherArgs : List Value) :
    machine.store.SameTrace other.store (machine.applying callee args).store
      (other.applying otherCallee otherArgs).store := by
  have applied : machine.store.SameTrace other.store (machine.store.record (.applied callee args))
      (other.store.record (.applied otherCallee otherArgs)) := .record _ _ rfl
  exact applied.trans (.record _ _ rfl)

end Machine

section

variable {callee otherCallee : Value} {args otherArgs : List Value}

/-- An application begins and ends around what it comes to. -/
theorem EndAlike.around {larger : Pairing} {value otherValue : Value} {later otherLater : Machine}
    (ended : EndAlike likeness pairing larger (machine.applying callee args)
      (other.applying otherCallee otherArgs) (value, later) (otherValue, otherLater)) :
    EndAlike likeness pairing larger machine other (value, later.record .exited)
      (otherValue, otherLater.record .exited) where
  within := ended.within
  value := ended.value
  store := ended.store.record _ _
  env := ended.env
  otherEnv := ended.otherEnv
  trace := ((machine.sameTrace_applying other callee otherCallee args otherArgs).trans
    ended.trace).trans (.record _ _ rfl)

/-- What the body of a function ends with, its application ends with in the environment of the
caller. -/
theorem EndAlike.leave {larger : Pairing} {value otherValue : Value} {later otherLater : Machine}
    (alike : machine.store.Alike likeness pairing other.store) {env otherEnv : Env}
    (paired : pairing.envs env otherEnv) (params : List String)
    (argsAlike : List.Forall₂ (Value.Alike likeness pairing) args otherArgs)
    (ended : EndAlike likeness
      (pairing.withEnv machine.store.scopes.size other.store.scopes.size) larger
      (machine.inside env params args) (other.inside otherEnv params otherArgs) (value, later)
      (otherValue, otherLater)) :
    EndAlike likeness pairing larger machine other
      (value.arrived, { later with env := machine.env })
      (otherValue.arrived, { otherLater with env := other.env }) where
  within := (pairing.within_withEnv _ _).trans ended.within
  value := ended.value.arrived
  store := ended.store
  env := rfl
  otherEnv := rfl
  trace := (Machine.sameTrace_inside alike paired params argsAlike).trans ended.trace

theorem Agree.invoke (sound : likeness.Sound) {call otherCall : Value → List Value → Run}
    (calls : CallsAgree likeness call otherCall)
    (alike : machine.store.Alike likeness pairing other.store)
    (calleeAlike : callee.Alike likeness pairing otherCallee)
    (argsAlike : List.Forall₂ (Value.Alike likeness pairing) args otherArgs) :
    Agree likeness pairing machine other (callee.invoke call args)
      (otherCallee.invoke otherCall otherArgs) := by
  cases calleeAlike with
  | @fn _ _ params body otherBody env otherEnv _ bodies paired =>
      by_cases sameLength : args.length = params.length
      · have ended := sound calls bodies (Machine.alike_inside alike paired params argsAlike)
        have otherSameLength := argsAlike.length_eq.symm.trans sameLength
        simp only [Agree, Value.invoke, if_pos sameLength, if_pos otherSameLength]
        unfold Agree at ended
        generalize Program.evalFrom call .null body (machine.inside env params args) = last,
          Program.evalFrom otherCall .null otherBody (other.inside otherEnv params otherArgs) =
            otherLast at ended
        rcases ended with ⟨larger, endAlike⟩ | _
        · exact .some ⟨larger, endAlike.leave alike paired params argsAlike⟩
        · exact .none
      · have otherLength := argsAlike.length_eq ▸ sameLength
        simp only [Agree, Value.invoke, if_neg sameLength, if_neg otherLength]
        exact argsAlike.length_eq ▸ Agree.refuse alike _
  | builtin callee _ =>
      rw [Value.invoke, Value.invoke]
      exact .answer alike fun _ within _ paired =>
        callee.apply_alike paired (argsAlike.imp fun _ _ argAlike => argAlike.mono within)
  | _ => exact .refuse alike _

end

theorem callsAgree_apply (sound : likeness.Sound) (fuel : Nat) :
    CallsAgree likeness (Value.apply fuel) (Value.apply fuel) := by
  -- In the body of a function one call less may be open; its trees are taken apart by `sound`.
  induction fuel with
  | zero =>
      intro pairing machine other callee otherCallee args otherArgs alike calleeAlike argsAlike
      exact .none
  | succ fuel ih =>
      intro pairing machine other callee otherCallee args otherArgs alike calleeAlike argsAlike
      have started := machine.alike_applying alike callee otherCallee args otherArgs
      have ended := Agree.invoke sound ih started calleeAlike argsAlike
      unfold Agree at ended
      simp only [Agree, Value.apply]
      generalize callee.invoke (Value.apply fuel) args (machine.applying callee args) = last,
        otherCallee.invoke (Value.apply fuel) otherArgs (other.applying otherCallee otherArgs) =
          otherLast at ended
      rcases ended with ⟨larger, endAlike⟩ | _
      · exact .some ⟨larger, endAlike.around⟩
      · exact .none

end Monkey
