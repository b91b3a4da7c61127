import Monkey.Proofs.Session.Carriers
import Monkey.Proofs.Session.Log

/-!
# A fault ends everything

A fault is made at most once in an evaluation, and is then its result. All that happens afterwards is
that the applications end which are open at that moment: the events behind the fault are as many ends
as there were more beginnings than ends before it.

The events of an evaluation are looked at from its outside. Without a fault, as many applications end
as begin, and such events may stand before any others; an application adds one beginning in front
and one end behind.
-/

namespace Monkey

/-- The fault that an event logs. -/
def Event.fault? : Event → Option Fault
  | .failed fault => some fault
  | _ => none

/-- The fault that is a value. -/
def Value.fault? : Value → Option Fault
  | .error fault => some fault
  | _ => none

theorem Value.fault?_of_isCarrier {value : Value} (plain : value.isCarrier = false) :
    value.fault? = none := by
  cases value with
  | error => cases plain
  | _ => rfl

/-- Where no carrier is inside a returned value, that arrives without a fault. -/
theorem Value.fault?_arrived {value : Value} (carries : value.CarriesPlain) :
    value.arrived.fault? = value.fault? := by
  cases value with
  | returned held => exact fault?_of_isCarrier (carries held rfl)
  | _ => rfl

/-- Events without a fault, among which `opened` applications begin and do not end. -/
structure Faultless (opened : Nat) (events : List Event) : Prop where
  faultless : events.filterMap Event.fault? = []
  balance : events.count .entered = events.count .exited + opened

namespace Faultless

theorem nil : Faultless 0 [] := ⟨rfl, rfl⟩

theorem append {opened more : Nat} {first second : List Event} (earlier : Faultless opened first)
    (next : Faultless more second) : Faultless (opened + more) (first ++ second) := by
  have balance := earlier.balance
  have nextBalance := next.balance
  refine ⟨by simp [earlier.faultless, next.faultless], ?_⟩
  simp only [List.count_append]
  omega

theorem exit {events : List Event} (faultless : Faultless 1 events) :
    Faultless 0 (events ++ [.exited]) := by
  refine ⟨by simp [faultless.faultless, Event.fault?], ?_⟩
  simp [faultless.balance]

theorem bound (env : Env) (bindings : List (String × Value)) :
    Faultless 0 (bindings.map fun binding => .bound env binding.1 binding.2) := by
  induction bindings with
  | nil => exact nil
  | cons binding rest ih =>
      have first : Faultless 0 [.bound env binding.1 binding.2] := ⟨rfl, rfl⟩
      exact first.append ih

theorem calling (params depth : Nat) : Faultless 0 [.calling params depth] := ⟨rfl, rfl⟩

theorem applying (callee : Value) (args : List Value) :
    Faultless 1 [.applied callee args, .entered] := ⟨rfl, rfl⟩

end Faultless

/-- The events of an evaluation with the given result: none of them is a fault, or the result is one
and all that is behind it are the ends of the applications that are open. -/
inductive Concludes : Value → List Event → Prop where
  | plain {value : Value} {events : List Event} (noFault : value.fault? = none)
      (faultless : Faultless 0 events) : Concludes value events
  | fault {fault : Fault} {before : List Event} {opened : Nat}
      (faultless : Faultless opened before) :
      Concludes (.error fault) (before ++ .failed fault :: List.replicate opened .exited)

namespace Concludes

/-- The faults among the events are the fault that is the result, if it is one. -/
theorem fault?_eq {value : Value} {events : List Event} (concludes : Concludes value events) :
    events.filterMap Event.fault? = value.fault?.toList := by
  cases concludes with
  | plain noFault faultless => rw [faultless.faultless, noFault, Option.toList_none]
  | fault faultless => simp [faultless.faultless, Event.fault?, Value.fault?]

theorem of_error {fault : Fault} {events : List Event} (concludes : Concludes (.error fault) events) :
    ∃ before opened, events = before ++ .failed fault :: List.replicate opened .exited ∧
      before.count .entered = before.count .exited + opened := by
  cases concludes with
  | plain noFault => cases noFault
  | fault faultless => exact ⟨_, _, rfl, faultless.balance⟩

theorem after {value : Value} {before events : List Event} (earlier : Faultless 0 before)
    (concludes : Concludes value events) : Concludes value (before ++ events) := by
  cases concludes with
  | plain noFault faultless => exact .plain noFault (earlier.append faultless)
  | fault faultless =>
      rw [← List.append_assoc]
      have whole := earlier.append faultless
      rw [Nat.zero_add] at whole
      exact .fault whole

/-- An application around some events begins before them and ends behind them. -/
theorem around {value : Value} {before events : List Event} (opens : Faultless 1 before)
    (concludes : Concludes value events) : Concludes value (before ++ events ++ [.exited]) := by
  cases concludes with
  | plain noFault faultless => exact .plain noFault (opens.append faultless).exit
  | @fault fault inner opened faultless =>
      have whole := opens.append faultless
      rw [Nat.add_comm] at whole
      have ends := @Concludes.fault fault _ _ whole
      rw [List.replicate_succ'] at ends
      simpa using ends

theorem congr {value other : Value} {events : List Event} (concludes : Concludes value events)
    (same : other.fault? = value.fault?) : Concludes other events := by
  cases concludes with
  | plain noFault faultless => exact .plain (same.trans noFault) faultless
  | fault faultless =>
      cases other with
      | error fault =>
          cases same
          exact .fault faultless
      | _ => cases same

end Concludes

/-- From the first machine to the second one, some events have happened that end with the value. -/
def Machine.Concludes (machine : Machine) (value : Value) (later : Machine) : Prop :=
  ∃ events, later.store.log.toList = machine.store.log.toList ++ events ∧
    Monkey.Concludes value events

namespace Machine.Concludes

variable {machine later : Machine} {value : Value}

theorem silent (plain : value.fault? = none) (same : later.store.log = machine.store.log) :
    machine.Concludes value later :=
  ⟨[], by simp [same], .plain plain .nil⟩

theorem trans {second : Machine} {result : Value} (earlier : machine.Concludes value second)
    (plain : value.isCarrier = false) (next : second.Concludes result later) :
    machine.Concludes result later := by
  rcases earlier with ⟨events, log, concludes⟩
  rcases next with ⟨more, moreLog, moreConcludes⟩
  cases concludes with
  | plain _ faultless => exact ⟨events ++ more, by simp [moreLog, log], moreConcludes.after faultless⟩
  | fault => cases plain

theorem congr {other : Value} (concludes : machine.Concludes value later)
    (same : other.fault? = value.fault?) : machine.Concludes other later := by
  rcases concludes with ⟨events, log, concludes⟩
  exact ⟨events, log, concludes.congr same⟩

theorem fail (machine : Machine) (fault : Fault) :
    machine.Concludes (.error fault) (machine.record (.failed fault)) :=
  ⟨[.failed fault], by simp, @Monkey.Concludes.fault fault [] 0 .nil⟩

theorem bind (machine : Machine) (name : String) (value : Value) :
    machine.Concludes .null (machine.bind name value) :=
  ⟨[.bound machine.env name value], by simp, .plain rfl (.bound machine.env [(name, value)])⟩

/-- What happens between the beginning and the end of an application is surrounded by these. -/
theorem around {callee : Value} {args : List Value}
    (concludes : (machine.applying callee args).Concludes value later) :
    machine.Concludes value (later.record .exited) := by
  rcases concludes with ⟨events, log, concludes⟩
  refine ⟨[.applied callee args, .entered] ++ events ++ [.exited], ?_,
    concludes.around (.applying callee args)⟩
  simp [log]

/-- The arguments are bound before the body of a function is evaluated. -/
theorem inside {env : Env} {params : List String} {args : List Value}
    (concludes : (machine.inside env params args).Concludes value later) :
    machine.Concludes value later := by
  rcases concludes with ⟨events, log, concludes⟩
  rw [Machine.log_inside, List.append_assoc, List.append_assoc] at log
  exact ⟨_, log, .after (.bound _ _) (.after (.calling _ _) concludes)⟩

end Machine.Concludes

/-- A fault is made at most once in an evaluation, and ends it. -/
def Contract.faults : Contract where
  pre := Contract.plain.pre
  fits := Contract.plain.fits
  post machine value later :=
    Contract.plain.post machine value later ∧ machine.Concludes value later
  applied machine value later :=
    Contract.plain.applied machine value later ∧ machine.Concludes value later
  settled pre post := Contract.plain.settled pre post.1
  ready pre post plain := Contract.plain.ready pre post.1 plain
  keeps pre post fits := Contract.plain.keeps pre post.1 fits
  trans earlier plain next :=
    ⟨Contract.plain.trans earlier.1 plain next.1, earlier.2.trans plain next.2⟩
  arrived post :=
    ⟨Contract.plain.arrived post.1, post.2.congr (Value.fault?_arrived post.1.2)⟩
  post_of_applied applied := ⟨Contract.plain.post_of_applied applied.1, applied.2⟩
  atomic := Contract.plain.atomic
  value pre fits := ⟨Contract.plain.value pre fits, .silent (Value.fault?_of_isCarrier fits) rfl⟩
  returned pre fits := ⟨Contract.plain.returned pre fits, .silent rfl rfl⟩
  made pre made :=
    ⟨Contract.plain.made pre made, .silent (Value.fault?_of_isCarrier made.isCarrier_eq) rfl⟩
  failed fault pre := ⟨Contract.plain.failed fault pre, .fail _ fault⟩
  close params body pre := ⟨Contract.plain.close params body pre, .silent rfl rfl⟩
  lookup pre found :=
    ⟨Contract.plain.lookup pre found, .silent (Value.fault?_of_isCarrier (pre.get? found)) rfl⟩
  bind name pre fits := ⟨Contract.plain.bind name pre fits, .bind _ name _⟩
  answer {machine callee _ args} pre calleeFits argsFit made := by
    have silent : (machine.applying callee args).Concludes _ (machine.applying callee args).issue :=
      .silent (Value.fault?_of_isCarrier made.isCarrier_eq) rfl
    exact ⟨Contract.plain.answer pre calleeFits argsFit made, silent.around⟩
  refuse fault pre calleeFits argsFit :=
    ⟨Contract.plain.refuse fault pre calleeFits argsFit, (Machine.Concludes.fail _ fault).around⟩
  enter := Contract.plain.enter
  leave pre calleeFits argsFit sameLength post := by
    have arrives := post.2.inside.congr (Value.fault?_arrived post.1.2)
    exact ⟨Contract.plain.leave pre calleeFits argsFit sameLength post.1, arrives.around⟩

/-- A program that is evaluated in any environment of a session makes a fault at most once, and does
so if and only if that fault is the result. All that happens after the fault are the ends of the
applications that are open then. No scope is bound differently any more: what the scopes bind in the
end is told by the log up to the fault. -/
theorem Program.faults_of_eval {session : Session} (reached : session.Reached) {env : Env}
    (existing : env < session.store.scopes.size) {fuel : Nat} {program : Program} {value : Value}
    {later : Store} (ends : program.eval fuel env session.store = some (value, later)) :
    ∃ events, later.log.toList = session.store.log.toList ++ events ∧
      events.filterMap Event.fault? = value.fault?.toList ∧
        ∀ fault, value = .error fault →
          ∃ before opened, events = before ++ .failed fault :: List.replicate opened .exited ∧
            before.count .entered = before.count .exited + opened ∧
              ∀ scope name, later.bound? scope name =
                latest? (session.store.log.toList ++ before) scope name := by
  rcases Option.map_eq_some_iff.mp ends with ⟨⟨result, last⟩, ran, answered⟩
  cases answered
  have admits : Contract.faults.Admits ⟨fuel, .program program, ⟨env, session.store⟩⟩ :=
    ⟨reached.plain, trivial⟩
  have logged : Contract.logged.Admits ⟨fuel, .program program, ⟨env, session.store⟩⟩ :=
    ⟨⟨existing, reached.logged⟩, trivial⟩
  rcases (admits.post ran).2 with ⟨events, log, concludes⟩
  refine ⟨events, log, concludes.fault?_eq, ?_⟩
  rintro fault rfl
  rcases concludes.of_error with ⟨before, opened, rfl, balance⟩
  refine ⟨before, opened, rfl, balance, fun scope name => ?_⟩
  have unbound : ∀ event ∈ Event.failed fault :: List.replicate opened .exited,
      event.binding? scope name = none := by
    intro event member
    rcases List.mem_cons.mp member with rfl | member
    · rfl
    · rw [List.eq_of_mem_replicate member]
      rfl
  rw [(logged.post ran).logged scope name, log, ← List.append_assoc,
    latest?_append_of_unbound unbound]

/-- A fault in the body of a function: neither the binding behind it nor that behind the call is
made. -/
theorem faults_of_failing_body :
    ∃ later,
      Program.eval 1 0
          [.letBe "f" (.fn [] [.expr (.unary .negate (.bool true)), .letBe "x" (.int 1)]),
            .expr (.call (.ident "f") []), .letBe "y" (.int 2)] Session.start.store =
        some (.error (.unknownUnary .negate .boolean), later) ∧
      ∃ before opened,
        later.log.toList =
          before ++ .failed (.unknownUnary .negate .boolean) :: List.replicate opened .exited ∧
        before.count .entered = before.count .exited + opened := by
  have ends :
      Program.eval 1 0
          [.letBe "f" (.fn [] [.expr (.unary .negate (.bool true)), .letBe "x" (.int 1)]),
            .expr (.call (.ident "f") []), .letBe "y" (.int 2)] Session.start.store =
        some (.error (.unknownUnary .negate .boolean), _) := rfl
  rcases Program.faults_of_eval .start (by decide) ends with ⟨events, log, -, behind⟩
  rcases behind _ rfl with ⟨before, opened, rfl, balance, -⟩
  exact ⟨_, ends, before, opened, log, balance⟩

end Monkey
