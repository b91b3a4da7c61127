import Monkey.Proofs.Evaluation.Operands
import Monkey.Proofs.Session.Closed
import Monkey.Proofs.Session.Depth

/-!
# Applications are brackets

The trace of an evaluation is made of applications and faults. What an application shows stands between
its beginning and its end, and is told by what is applied: a call of a function shows that it is called,
and then the trace of its body; all others show a fault, or nothing. So beginnings and ends match like
brackets, however an evaluation ends, and in front of a bracket stands what its operands have shown.
-/

namespace Monkey

/-! ### The grammar of traces -/

mutual

/-- Applications and faults follow each other. -/
inductive Bracketed (store : Store) : List Event → Prop where
  | nil : Bracketed store []
  | fault (fault : Fault) {rest : List Event} (others : Bracketed store rest) :
      Bracketed store (.failed fault :: rest)
  | application {callee : Value} {args : List Value} {events rest : List Event}
      (first : Application store callee args events) (others : Bracketed store rest) :
      Bracketed store (events ++ rest)

/-- The value is applied to the arguments. -/
inductive Application (store : Store) : Value → List Value → List Event → Prop where
  | mk {callee : Value} {args : List Value} {events : List Event}
      (inside : Invocation store callee args events) :
      Application store callee args (.applied callee args :: .entered :: (events ++ [.exited]))

/-- What happens between the beginning of an application and its end. -/
inductive Invocation (store : Store) : Value → List Value → List Event → Prop where
  | call {identity : Nat} {params : List String} {body : Program} {env : Env} {args : List Value}
      {events : List Event} (sameLength : args.length = params.length)
      (existing : env < store.scopes.size) (inside : Bracketed store events) :
      Invocation store (.fn identity params body env) args
        (.calling params.length (store.depth env + 1) :: events)
  | wrongCount {identity : Nat} {params : List String} {body : Program} {env : Env}
      {args : List Value} (differs : args.length ≠ params.length) :
      Invocation store (.fn identity params body env) args
        [.failed (.wrongArgumentCount args.length params.length)]
  | answer {identity fresh : Nat} {builtin : Builtin} {args : List Value} {value : Value}
      (answers : builtin.apply fresh args = .ok value) :
      Invocation store (.builtin identity builtin) args []
  | refuse {identity fresh : Nat} {builtin : Builtin} {args : List Value} {fault : Fault}
      (refuses : builtin.apply fresh args = .error fault) :
      Invocation store (.builtin identity builtin) args [.failed fault]
  | notCallable {callee : Value} {args : List Value}
      (noFunction : ∀ identity params body env, callee ≠ .fn identity params body env)
      (noBuiltin : ∀ identity builtin, callee ≠ .builtin identity builtin) :
      Invocation store callee args [.failed (.notFunction callee.typeName)]

end

section

variable {store later : Store}

mutual

theorem Bracketed.mono (stays : store.Stays later) :
    ∀ {events : List Event}, Bracketed store events → Bracketed later events
  | _, .nil => .nil
  | _, .fault reason others => .fault reason (others.mono stays)
  | _, .application first others => .application (first.mono stays) (others.mono stays)
termination_by structural _ bracketed => bracketed

theorem Application.mono (stays : store.Stays later) :
    ∀ {callee : Value} {args : List Value} {events : List Event},
      Application store callee args events → Application later callee args events
  | _, _, _, .mk inside => .mk (inside.mono stays)
termination_by structural _ _ _ application => application

theorem Invocation.mono (stays : store.Stays later) :
    ∀ {callee : Value} {args : List Value} {events : List Event},
      Invocation store callee args events → Invocation later callee args events
  | _, _, _, .call sameLength existing inside => by
      rw [← stays.depth_eq existing]
      exact .call sameLength (Nat.lt_of_lt_of_le existing stays.size) (inside.mono stays)
  | _, _, _, .wrongCount differs => .wrongCount differs
  | _, _, _, .answer answers => .answer answers
  | _, _, _, .refuse refuses => .refuse refuses
  | _, _, _, .notCallable noFunction noBuiltin => .notCallable noFunction noBuiltin
termination_by structural _ _ _ invocation => invocation

end

end

theorem Bracketed.append {store : Store} {second : List Event} (next : Bracketed store second) :
    ∀ {first : List Event}, Bracketed store first → Bracketed store (first ++ second)
  | _, .nil => next
  | _, .fault reason others => .fault reason (append next others)
  | _, .application first others => by
      rw [List.append_assoc]
      exact .application first (append next others)
termination_by structural _ bracketed => bracketed

/-! ### Evaluations -/

/-- Between the two stores the trace shows brackets that match. -/
structure Store.Brackets (store later : Store) : Prop where
  after : store.Later later
  shown : ∃ events, later.shown = store.shown ++ events ∧ Bracketed later events

theorem Store.Later.stays {store last : Store} (later : store.Later last) : store.Stays last := by
  rcases later.went with ⟨events, went⟩
  exact went.scopes.mono fun _ _ => trivial

namespace Store.Brackets

variable {store later : Store}

/-- What the trace does not show does not count. -/
theorem silent (after : store.Later later) (same : later.shown = store.shown) :
    store.Brackets later :=
  ⟨after, [], by rw [same, List.append_nil], .nil⟩

theorem refl (store : Store) : store.Brackets store := .silent (.refl store) rfl

theorem trans {middle : Store} (earlier : store.Brackets middle) (next : middle.Brackets later) :
    store.Brackets later := by
  rcases earlier with ⟨before, events, shown, bracketed⟩
  rcases next with ⟨after, more, moreShown, moreBracketed⟩
  -- The depths that the earlier calls have shown are the same in the later store.
  exact ⟨before.trans after, events ++ more, by rw [moreShown, shown, List.append_assoc],
    .append moreBracketed (bracketed.mono after.stays)⟩

theorem fail (store : Store) (fault : Fault) : store.Brackets (store.record (.failed fault)) :=
  ⟨(Store.Later.refl store).record _, [.failed fault], store.shown_record _, .fault fault .nil⟩

end Store.Brackets

/-- Wherever the run ends, the trace shows brackets that match. -/
def Run.Brackets (run : Run) (machine : Machine) : Prop :=
  ∀ ⦃value later⦄, run machine = some (value, later) → machine.store.Brackets later.store

namespace Run.Brackets

variable {machine : Machine}

theorem value (value : Value) : (Run.value value).Brackets machine := by
  intro result later ends
  cases ends
  exact .refl _

theorem answer (make : Nat → Except Fault Value) : (Run.answer make).Brackets machine := by
  intro value later ends
  simp only [Run.answer, Store.answer] at ends
  split at ends
  · cases ends
    exact .silent (Store.Later.refl machine.store).issue rfl
  · cases ends
    exact .fail machine.store _

theorem close (params : List String) (body : Program) :
    (Run.close params body).Brackets machine :=
  fun _ _ ends => answer _ ends

theorem resolve (name : String) : (Run.resolve name).Brackets machine := by
  intro value later ends
  cases bound : machine.store.get? machine.env name with
  | some held =>
      rw [Run.resolve_of_bound bound] at ends
      cases ends
      exact .refl _
  | none =>
      rw [Run.resolve_of_unbound bound] at ends
      exact answer _ ends

theorem bind (name : String) (value : Value) : (Run.bind name value).Brackets machine := by
  intro result later ends
  cases ends
  exact .silent ((Store.Later.refl machine.store).set _ _ _) (by simp [Store.shown, Event.line?])

theorem thenPlain {first : Run} {next : Value → Run} (firstBrackets : first.Brackets machine)
    (nextBrackets : ∀ value later, first machine = some (value, later) → value.isCarrier = false →
      (next value).Brackets later) : (first.thenPlain next).Brackets machine := by
  intro value later ends
  rcases Run.thenPlain_cases ends with ⟨ran, -⟩ | ⟨held, middle, ran, plain, followed⟩
  · exact firstBrackets ran
  · exact (firstBrackets ran).trans (nextBrackets held middle ran plain followed)

end Run.Brackets

namespace Evaluation

/-- If the evaluation ends, the trace shows brackets that match. -/
def Brackets (evaluation : Evaluation) : Prop :=
  (evaluation.task.run evaluation.fuel).Brackets evaluation.machine

theorem shown_applying (machine : Machine) (callee : Value) (args : List Value) :
    (machine.applying callee args).store.shown =
      machine.store.shown ++ [.applied callee args, .entered] := by
  simp [Machine.applying, Event.line?]

theorem shown_inside (machine : Machine) (env : Env) (params : List String) (args : List Value) :
    (machine.inside env params args).store.shown =
      machine.store.shown ++ [.calling params.length (machine.store.depth env + 1)] := by
  have bindings : ((params.zip args).map fun binding =>
      Event.bound machine.store.scopes.size binding.1 binding.2).filter (·.line?.isSome) = [] := by
    simp [List.filter_map, Function.comp_def, Event.line?]
  rw [Store.shown, Machine.log_inside, Machine.env_inside, Machine.depth_inside, List.filter_append,
    List.filter_append, bindings, List.append_nil]
  rfl

/-- What happens inside of an application is told by what is applied. -/
theorem invocation_of_body {fuel : Nat} {callee value : Value} {args : List Value}
    {machine later : Machine} (known : callee.Known machine.store)
    (body : ∀ inner, Starts ⟨fuel + 1, .apply callee args, machine⟩ inner → inner.Brackets)
    (ends : callee.invoke (Value.apply fuel) args (machine.applying callee args) =
      some (value, later)) :
    ∃ events, later.store.shown = (machine.applying callee args).store.shown ++ events ∧
      Invocation later.store callee args events := by
  cases callee with
  | fn identity params trees env =>
      by_cases sameLength : args.length = params.length
      · simp only [Value.invoke, if_pos sameLength] at ends
        rcases Option.map_eq_some_iff.mp ends with ⟨⟨result, last⟩, ran, answered⟩
        cases answered
        rcases body _ (.body sameLength) ran with ⟨after, events, shown, bracketed⟩
        have stays : (machine.applying _ args).store.Stays last.store :=
          (Machine.stays_inside _ env params args).trans after.stays
        refine ⟨_, ?_, @Invocation.call _ identity params trees env args events sameLength
          (Nat.lt_of_lt_of_le known.2 stays.size) bracketed⟩
        rw [stays.depth_eq known.2]
        simpa [shown_inside] using shown
      · simp only [Value.invoke, if_neg sameLength] at ends
        cases ends
        exact ⟨_, Store.shown_record _ _, .wrongCount sameLength⟩
  | builtin identity builtin =>
      simp only [Value.invoke, Run.answer, Store.answer] at ends
      split at ends
      · rename_i made answers
        cases ends
        exact ⟨[], by simp [Store.shown], .answer answers⟩
      · rename_i fault refuses
        cases ends
        exact ⟨_, Store.shown_record _ _, .refuse refuses⟩
  | _ =>
      cases ends
      exact ⟨_, Store.shown_record _ _, .notCallable (by simp) (by simp)⟩

/-- An application shows what it consists of. -/
theorem application_of_body {fuel : Nat} {callee value : Value} {args : List Value}
    {machine later : Machine} (known : callee.Known machine.store)
    (body : ∀ inner, Starts ⟨fuel, .apply callee args, machine⟩ inner → inner.Brackets)
    (ends : (Task.apply callee args).run fuel machine = some (value, later)) :
    ∃ events, later.store.shown = machine.store.shown ++ events ∧
      Application later.store callee args events := by
  cases fuel with
  | zero => cases ends
  | succ fuel =>
      rcases Option.map_eq_some_iff.mp ends with ⟨⟨result, last⟩, ran, answered⟩
      cases answered
      rcases invocation_of_body known body ran with ⟨events, shown, inside⟩
      refine ⟨_, ?_, .mk (inside.mono (last.store.stays_record .exited))⟩
      simp [shown, shown_applying, Event.line?]

theorem brackets_of_parts {outer : Evaluation} (admits : Contract.closed.Admits outer)
    (parts : ∀ inner, outer.Starts inner → inner.Brackets) : outer.Brackets := by
  rcases outer with ⟨fuel, task, machine⟩
  cases task with
  | expr expr =>
      cases expr with
      | ident name => exact .resolve name
      | int | bool => exact .value _
      | str text => exact .answer fun fresh => .ok (.str fresh text)
      | fn params body => exact .close params body
      | unary op operand =>
          exact .thenPlain (parts _ .operand) fun _ _ _ _ => .answer _
      | binary op left right =>
          exact .thenPlain (parts _ .left) fun _ _ leftRan leftPlain =>
            .thenPlain (parts _ (.right leftRan leftPlain)) fun _ _ _ _ => .answer _
      | ifThen condition consequence =>
          refine .thenPlain (parts _ .condition) fun value later ran plain => ?_
          split
          · rename_i truthy
            exact parts _ (.consequence ran plain truthy)
          · exact .value _
      | ifElse condition consequence alternative =>
          refine .thenPlain (parts _ .eitherCondition) fun value later ran plain => ?_
          split
          · rename_i truthy
            exact parts _ (.eitherConsequence ran plain truthy)
          · rename_i falsy
            exact parts _ (.alternative ran plain (by simpa using falsy))
      | call callee args =>
          exact .thenPlain (parts _ .callee) fun value later ran plain => parts _ (.args ran plain)
  | args callee earlier rest =>
      cases rest with
      | nil =>
          have ends := parts _ .apply
          simpa [Brackets, Task.run, Expr.evalAll] using ends
      | cons arg rest =>
          refine .thenPlain (parts _ .arg) fun value later ran plain => ?_
          rw [Task.run_laterArgs]
          exact parts _ (.laterArgs ran plain)
  | stmt stmt =>
      cases stmt with
      | letBe name value => exact .thenPlain (parts _ .bound) fun _ _ _ _ => .bind name _
      | ret value => exact .thenPlain (parts _ .returned) fun _ _ _ _ => .value _
      | expr value => exact parts ⟨fuel, .expr value, machine⟩ .expr
      | block body => exact parts ⟨fuel, .stmts .null body, machine⟩ .block
  | stmts last rest =>
      cases rest with
      | nil => exact .value last
      | cons stmt rest =>
          exact .thenPlain (parts _ .stmt) fun value later ran plain => parts _ (.laterStmts ran plain)
  | apply callee args =>
      intro value later ends
      rcases application_of_body admits.fits.1 parts ends with ⟨events, shown, application⟩
      refine ⟨Task.later_of_run ends, events, shown, ?_⟩
      simpa using Bracketed.application application .nil
  | program program =>
      intro value later ends
      rcases Option.map_eq_some_iff.mp ends with ⟨⟨result, last⟩, ran, answered⟩
      cases answered
      exact parts _ .program ran

theorem brackets (evaluation : Evaluation) (admits : Contract.closed.Admits evaluation) :
    evaluation.Brackets := by
  induction evaluation using Evaluation.induction with
  | step outer ih =>
      exact brackets_of_parts admits fun inner starts => ih inner starts (admits.starts starts)

end Evaluation

theorem Contract.Admits.contained {contract : Contract} {outer inner : Evaluation}
    (admits : contract.Admits outer) (contains : outer.Contains inner) : contract.Admits inner := by
  induction contains with
  | refl => exact admits
  | tail _ starts ih => exact ih.starts starts

/-! ### Calls -/

/-- A call shows what its operands show, from left to right. If all of them have plain values, one
application follows. -/
inductive CallShows (fuel : Nat) (machine : Machine) (callee : Expr) (args : List Expr) :
    List Event → Value × Machine → Prop where
  | cut {events : List Event} {carrier : Value} {later : Machine}
      (operands : Operands fuel machine (callee :: args) events (.error carrier) later) :
      CallShows fuel machine callee args events (carrier, later)
  | applied {events application : List Event} {value result : Value} {values : List Value}
      {middle later : Machine}
      (operands : Operands fuel machine (callee :: args) events (.ok (value :: values)) middle)
      (ran : (Task.apply value values).run fuel middle = some (result, later))
      (shown : later.store.shown = middle.store.shown ++ application)
      (brackets : Application later.store value values application) :
      CallShows fuel machine callee args (events ++ application) (result, later)

namespace CallShows

variable {fuel : Nat} {machine : Machine} {callee : Expr} {args : List Expr}

theorem shown_eq {events : List Event} {ended : Value × Machine}
    (shows : CallShows fuel machine callee args events ended) :
    ended.2.store.shown = machine.store.shown ++ events := by
  cases shows with
  | cut operands => exact operands.shown_eq
  | applied operands _ shown => rw [shown, operands.shown_eq, List.append_assoc]

theorem of_ends {result : Value} {later : Machine}
    (admits : Contract.closed.Admits ⟨fuel, .expr (.call callee args), machine⟩)
    (ends : (Task.expr (.call callee args)).run fuel machine = some (result, later)) :
    ∃ events, CallShows fuel machine callee args events (result, later) := by
  rcases Operands.of_call ends with
    ⟨events, operands⟩ | ⟨events, value, values, middle, operands, contains, ran⟩
  · exact ⟨events, .cut operands⟩
  · have applying := admits.contained contains
    rcases Evaluation.application_of_body applying.fits.1
      (fun inner starts => inner.brackets (applying.starts starts)) ran with
      ⟨application, shown, brackets⟩
    exact ⟨events ++ application, .applied operands ran shown brackets⟩

end CallShows

/-- What the trace shows of a program consists of faults and of applications that match like brackets.
Each call that is evaluated meanwhile has its own piece of the trace: first what its operands show, from
left to right, and then, if all of them have plain values, one application, however that ends. -/
theorem Program.brackets_of_eval {store later : Store} (closed : store.Closed) {env : Env}
    (existing : env < store.scopes.size) {fuel : Nat} {program : Program} {value : Value}
    (ends : program.eval fuel env store = some (value, later)) :
    ∃ events, later.shown = store.shown ++ events ∧ Bracketed later events ∧
      ∀ limit machine callee args,
        Evaluation.Contains ⟨fuel, .program program, ⟨env, store⟩⟩
            ⟨limit, .expr (.call callee args), machine⟩ →
          ∃ before during after ended,
            (Task.expr (.call callee args)).run limit machine = some ended ∧
              CallShows limit machine callee args during ended ∧
                machine.store.shown = store.shown ++ before ∧
                  events = before ++ during ++ after := by
  rcases Option.map_eq_some_iff.mp ends with ⟨⟨result, last⟩, ran, answered⟩
  cases answered
  have admits : Contract.closed.Admits ⟨fuel, .program program, ⟨env, store⟩⟩ :=
    ⟨⟨existing, closed⟩, trivial⟩
  rcases Evaluation.brackets _ admits ran with ⟨-, events, shown, bracketed⟩
  refine ⟨events, shown, bracketed, fun limit machine callee args contains => ?_⟩
  rcases contains.ended ran with ⟨outcome, reached, callEnds, reachedLater⟩
  rcases CallShows.of_ends (admits.contained contains) callEnds with ⟨during, shows⟩
  rcases contains.later.exists_shown with ⟨before, shownBefore⟩
  rcases reachedLater.exists_shown with ⟨after, shownAfter⟩
  -- The piece of the call lies between what was shown when it began and what is shown behind it.
  refine ⟨before, during, after, _, callEnds, shows, shownBefore, ?_⟩
  rw [shown, shows.shown_eq, shownBefore] at shownAfter
  simpa using shownAfter

/-- The argument of a function is itself a call, and the function returns. -/
theorem brackets_of_call_in_argument :
    ∃ later, Program.eval 1 0
        [.expr (.call (.fn ["x"] [.ret (.ident "x")]) [.call (.ident "len") [.str "a"]])]
          Session.start.store = some (.int 1, later) ∧
      ∃ events, later.shown = events ∧ Bracketed later events := by
  have ends : Program.eval 1 0
      [.expr (.call (.fn ["x"] [.ret (.ident "x")]) [.call (.ident "len") [.str "a"]])]
        Session.start.store = some (.int 1, _) := rfl
  rcases Program.brackets_of_eval Machine.closed_start.closed (by decide) ends with
    ⟨events, shown, bracketed, -⟩
  exact ⟨_, ends, events, shown, bracketed⟩

end Monkey
