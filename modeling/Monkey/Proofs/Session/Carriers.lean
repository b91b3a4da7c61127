import Monkey.Proofs.Session.Reach

/-!
# Carriers stay out of the data

A carrier is the result of an evaluation at most. It is never bound to a name, never applied, never
an argument, and never inside a returned value. A returned value gets no further than the end of
the function or program that it leaves. This holds in all evaluations of a session, whatever
environments and functions they share.
-/

namespace Monkey

/-- The values that an event logs are no carriers. -/
def Event.Plain : Event → Prop
  | .applied callee args => callee.isCarrier = false ∧ ∀ arg ∈ args, arg.isCarrier = false
  | .bound _ _ value => value.isCarrier = false
  | _ => True

/-- No scope binds a name to a carrier, and none has ever done so or been applied to one. -/
structure Store.Plain (store : Store) : Prop where
  bound : ∀ env name value, store.bound? env name = some value → value.isCarrier = false
  logged : ∀ event ∈ store.log.toList, event.Plain

/-- The values in a task are no carriers. -/
def Task.Plain : Task → Prop
  | .args callee earlier _ =>
    callee.isCarrier = false ∧ ∀ value ∈ earlier, value.isCarrier = false
  | .stmts last _ => last.isCarrier = false
  | .apply callee values => callee.isCarrier = false ∧ ∀ arg ∈ values, arg.isCarrier = false
  | _ => True

/-- Functions and programs are what a return leaves. -/
def Task.EndsReturns : Task → Prop
  | .apply _ _ | .program _ => True
  | _ => False

/-- A value that leaves a function is not itself one that travels outwards. -/
def Value.CarriesPlain (value : Value) : Prop :=
  ∀ inner, value = .returned inner → inner.isCarrier = false

namespace Value

theorem Made.isCarrier_eq {fresh : Nat} {value : Value} (made : value.Made fresh) :
    value.isCarrier = false := by
  rcases made with (_ | _ | _) | _ | _ <;> rfl

theorem CarriesPlain.of_ne {value : Value} (ne : ∀ inner, value ≠ .returned inner) :
    value.CarriesPlain :=
  fun inner isReturned => absurd isReturned (ne inner)

theorem ne_returned_of_isCarrier {value : Value} (plain : value.isCarrier = false) (inner : Value) :
    value ≠ .returned inner := by
  rintro rfl
  cases plain

theorem CarriesPlain.arrived_ne {value : Value} (carries : value.CarriesPlain) (inner : Value) :
    value.arrived ≠ .returned inner := by
  cases value with
  | returned held => exact ne_returned_of_isCarrier (carries held rfl) inner
  | _ => nofun

end Value

namespace Store.Plain

variable {store : Store}

theorem record (plain : store.Plain) {event : Event} (eventPlain : event.Plain) :
    (store.record event).Plain := by
  refine ⟨plain.bound, fun other member => ?_⟩
  rw [log_record, List.mem_append, List.mem_singleton] at member
  rcases member with member | rfl
  · exact plain.logged other member
  · exact eventPlain

theorem fail (plain : store.Plain) (fault : Fault) : (store.record (.failed fault)).Plain :=
  plain.record trivial

theorem exit (plain : store.Plain) : (store.record .exited).Plain :=
  plain.record trivial

theorem openScope (plain : store.Plain) (outer : List Env) : (store.openScope outer).2.Plain :=
  ⟨Binds.openScope plain.bound outer, plain.logged⟩

theorem set (plain : store.Plain) (env : Env) (name : String) {value : Value}
    (valuePlain : value.isCarrier = false) : (store.set env name value).2.Plain := by
  refine ⟨Binds.set plain.bound env name valuePlain, fun event member => ?_⟩
  rw [log_set, List.mem_append, List.mem_singleton] at member
  rcases member with member | rfl
  · exact plain.logged event member
  · exact valuePlain

theorem setAll (plain : store.Plain) (env : Env) {bindings : List (String × Value)}
    (bindingsPlain : ∀ binding ∈ bindings, binding.2.isCarrier = false) :
    (store.setAll env bindings).Plain := by
  induction bindings generalizing store with
  | nil => exact plain
  | cons binding rest ih =>
      have first := plain.set env binding.1 (bindingsPlain binding (by simp))
      exact ih first fun other member => bindingsPlain other (by simp [member])

theorem get? (plain : store.Plain) {env : Env} {name : String} {value : Value}
    (found : store.get? env name = some value) : value.isCarrier = false :=
  Binds.get? plain.bound found

end Store.Plain

theorem Machine.plain_issue {machine : Machine} (plain : machine.store.Plain) :
    machine.issue.store.Plain :=
  ⟨plain.bound, plain.logged⟩

theorem Machine.plain_applying {machine : Machine} (plain : machine.store.Plain) {callee : Value}
    {args : List Value} (calleePlain : callee.isCarrier = false)
    (argsPlain : ∀ arg ∈ args, arg.isCarrier = false) :
    (machine.applying callee args).store.Plain := by
  have applied : (Event.applied callee args).Plain := ⟨calleePlain, argsPlain⟩
  have entered : Event.entered.Plain := trivial
  exact (plain.record applied).record entered

theorem Machine.plain_inside {machine : Machine} (plain : machine.store.Plain) (env : Env)
    (params : List String) {args : List Value} (argsPlain : ∀ arg ∈ args, arg.isCarrier = false) :
    (machine.inside env params args).store.Plain := by
  have bindingsPlain : ∀ binding ∈ params.zip args, binding.2.isCarrier = false :=
    fun binding member => argsPlain binding.2 (List.of_mem_zip member).2
  have calling : ∀ count depth, (Event.calling count depth).Plain := fun _ _ => trivial
  exact ((plain.openScope _).setAll _ bindingsPlain).record (calling _ _)

/-- Evaluations leave a store without carriers, and a value that carries none. -/
def Contract.plain : Contract where
  pre machine := machine.store.Plain
  fits _ value := value.isCarrier = false
  post _ value later := later.store.Plain ∧ value.CarriesPlain
  applied _ value later := later.store.Plain ∧ ∀ inner, value ≠ .returned inner
  settled _ post := post.1
  ready _ _ plain := plain
  keeps _ _ fits := fits
  trans _ _ next := next
  arrived post := ⟨post.1, .of_ne post.2.arrived_ne⟩
  post_of_applied applied := ⟨applied.1, .of_ne applied.2⟩
  atomic {_ _} _ atomic := (@Value.Made.atomic 0 _ atomic).isCarrier_eq
  value pre fits := ⟨pre, .of_ne (Value.ne_returned_of_isCarrier fits)⟩
  returned pre fits := ⟨pre, fun _ isReturned => by cases isReturned; exact fits⟩
  made pre made :=
    ⟨Machine.plain_issue pre, .of_ne (Value.ne_returned_of_isCarrier made.isCarrier_eq)⟩
  failed fault pre := ⟨pre.fail fault, nofun⟩
  close _ _ pre := ⟨Machine.plain_issue pre, nofun⟩
  lookup pre found := ⟨pre, .of_ne (Value.ne_returned_of_isCarrier (pre.get? found))⟩
  bind name pre fits := ⟨pre.set _ name fits, nofun⟩
  answer pre calleeFits argsFit made := by
    have started := Machine.plain_applying pre calleeFits argsFit
    exact ⟨(Machine.plain_issue started).exit,
      Value.ne_returned_of_isCarrier made.isCarrier_eq⟩
  refuse fault pre calleeFits argsFit :=
    ⟨((Machine.plain_applying pre calleeFits argsFit).fail fault).exit, nofun⟩
  enter pre calleeFits argsFit _ :=
    Machine.plain_inside (Machine.plain_applying pre calleeFits argsFit) _ _ argsFit
  leave _ _ _ _ post := ⟨post.1.exit, post.2.arrived_ne⟩

theorem Store.plain_start : Session.start.store.Plain :=
  ⟨binds_start _, List.forall_mem_nil _⟩

/-- In all sessions scopes bind no carriers. -/
theorem Session.Reached.plain {session : Session} (reached : session.Reached) :
    session.store.Plain := by
  have pre : Contract.plain.pre ⟨session.env, session.store⟩ :=
    Contract.pre_of_reached Store.plain_start reached
  exact pre

/-- The name of a type that the builtin function gives is that of a type of plain values. -/
theorem Value.typeName_text_ne {value : Value} (plain : value.isCarrier = false) :
    value.typeName.text ≠ TypeName.returnValue.text ∧ value.typeName.text ≠ TypeName.error.text := by
  cases value with
  | returned | error => cases plain
  | _ => simp [typeName, TypeName.text]

/-- The builtin function gives the name of the type of its argument. -/
theorem Value.text_of_typeOf {fuel identity fresh : Nat} {args : List Value} {text : String}
    {machine later : Machine} (ends : Value.apply fuel (.builtin identity .typeOf) args machine =
      some (.str fresh text, later)) : ∃ arg ∈ args, text = arg.typeName.text := by
  cases fuel with
  | zero => cases ends
  | succ fuel =>
      rcases args with _ | ⟨arg, _ | ⟨second, rest⟩⟩
      · cases ends
      · cases ends
        exact ⟨arg, by simp, rfl⟩
      · cases ends

/-- A returned value leaves neither the function nor the program that it ends. -/
theorem Contract.ne_returned_of_endsReturns {evaluation : Evaluation}
    (admits : Contract.plain.Admits evaluation) (endsReturns : evaluation.task.EndsReturns)
    {value : Value} {later : Machine} (ends : evaluation.result? = some (value, later))
    (inner : Value) : value ≠ .returned inner := by
  rcases evaluation with ⟨fuel, task, machine⟩
  cases task with
  | apply callee args => exact (admits.applied ends).2 inner
  | program program =>
      rcases Option.map_eq_some_iff.mp ends with ⟨⟨result, last⟩, ran, answered⟩
      cases answered
      exact ((admits.starts .program).post ran).2.arrived_ne inner
  | _ => exact endsReturns.elim

/-- In all evaluations of a session, carriers are kept out of scopes, of functions that are applied,
of their arguments, and of returned values, and returned values get no further than the function or
program that they leave. So the builtin function that names types never names that of a carrier. -/
theorem Evaluation.Reached.carriers_contained {evaluation : Evaluation}
    (reached : evaluation.Reached) :
    evaluation.machine.store.Plain ∧ evaluation.task.Plain ∧
      ∀ value later, evaluation.result? = some (value, later) →
        later.store.Plain ∧ value.CarriesPlain ∧
          (evaluation.task.EndsReturns → ∀ inner, value ≠ .returned inner) ∧
            ∀ identity args, evaluation.task = .apply (.builtin identity .typeOf) args →
              ∀ fresh text, value = .str fresh text →
                text ≠ "RETURN_VALUE" ∧ text ≠ "ERROR" := by
  have admits : Contract.plain.Admits evaluation :=
    Contract.admits_of_reached Store.plain_start reached
  have taskPlain : evaluation.task.Plain := by
    have fits := admits.fits
    cases task : evaluation.task <;> rw [task] at fits <;> exact fits
  refine ⟨admits.pre, taskPlain, fun value later ends => ?_⟩
  have post := admits.post ends
  refine ⟨post.1, post.2, fun endsReturns => ?_, ?_⟩
  · exact Contract.ne_returned_of_endsReturns admits endsReturns ends
  · rintro identity args applies fresh text rfl
    rw [applies] at taskPlain
    rw [Evaluation.result?, applies] at ends
    rcases Value.text_of_typeOf ends with ⟨arg, member, rfl⟩
    exact Value.typeName_text_ne (taskPlain.2 arg member)

/-- The first program of a session is `type(1)`: its application is reached, with a text as result. -/
theorem type_of_one_contained :
    ∃ machine later,
      Evaluation.Reached ⟨1, .apply (.builtin 0 .typeOf) [.int 1], machine⟩ ∧
        (Task.apply (.builtin 0 .typeOf) [.int 1]).run 1 machine =
          some (.str 1 "INTEGER", later) ∧
        later.store.Plain ∧ "INTEGER" ≠ TypeName.returnValue.text := by
  have program := Evaluation.Reached.program .start 1 [.expr (.call (.ident "type") [.int 1])]
  have statement := ((program.started .program).started .stmt).started .expr
  have arguments := (statement.started (.args rfl rfl)).started (.laterArgs rfl rfl)
  have application := arguments.started .apply
  have contained := application.carriers_contained.2.2 (.str 1 "INTEGER") _ rfl
  exact ⟨_, _, application, rfl, contained.1, (contained.2.2.2 0 _ rfl 1 _ rfl).1⟩

end Monkey
