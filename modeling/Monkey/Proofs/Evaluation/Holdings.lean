import Monkey.Proofs.Evaluation.Objects

/-!
# Which objects evaluations hold

An evaluation holds the objects that it finds, bound to names or among the values in its task, and those
that it makes or that evaluations make that it contains. There are no others: none is in its result, and
none is bound to a name in the end.
-/

namespace Monkey

/-- An object in the value, be it returned, is held. -/
def Value.Holds (held : Value → Prop) : Value → Prop
  | .returned value => value.Holds held
  | .int _ | .bool _ | .null | .error _ => True
  | .str identity text => held (.str identity text)
  | .fn identity params body env => held (.fn identity params body env)
  | .builtin identity callee => held (.builtin identity callee)

namespace Value

variable {held : Value → Prop} {value : Value}

theorem Atomic.holds (atomic : value.Atomic) : value.Holds held := by
  cases atomic <;> trivial

theorem Holds.arrived (holds : value.Holds held) : value.arrived.Holds held := by
  cases value <;> exact holds

theorem holds_of_held (isHeld : held value) (identified : value.identity?.isSome) :
    value.Holds held := by
  cases value with
  | str | fn | builtin => exact isHeld
  | _ => cases identified

theorem held_of_holds {identity : Nat} (holds : value.Holds held)
    (isIdentity : value.identity? = some identity) : held value := by
  cases value with
  | str | fn | builtin => exact holds
  | _ => cases isIdentity

end Value

namespace Evaluation

/-- All objects that the evaluation finds are held. -/
structure Holds (held : Value → Prop) (evaluation : Evaluation) : Prop where
  binds : evaluation.machine.store.Binds (Value.Holds held)
  values : ∀ value ∈ evaluation.task.values, value.Holds held

/-- All objects that the evaluation leaves are held. -/
def Leaves (held : Value → Prop) (evaluation : Evaluation) : Prop :=
  ∀ ⦃value later⦄, evaluation.result? = some (value, later) →
    later.store.Binds (Value.Holds held) ∧ value.Holds held

section

variable {held : Value → Prop} {outer inner : Evaluation}

theorem leaves_of_answer {make : Nat → Except Fault Value} {machine later : Machine} {value : Value}
    (binds : machine.store.Binds (Value.Holds held))
    (makes : ∀ made, make machine.store.fresh = .ok made → made.Holds held)
    (ends : Run.answer make machine = some (value, later)) :
    later.store.Binds (Value.Holds held) ∧ value.Holds held := by
  simp only [Run.answer, Store.answer] at ends
  split at ends
  · rename_i made isMade
    cases ends
    exact ⟨binds, makes made isMade⟩
  · cases ends
    exact ⟨binds, trivial⟩

/-- What an evaluation finds and what its parts leave is held by all of its parts. -/
theorem Starts.holds (starts : outer.Starts inner) (holds : outer.Holds held)
    (parts : ∀ part, outer.Starts part → part.Holds held → part.Leaves held) : inner.Holds held := by
  rcases holds with ⟨binds, values⟩
  have null : ∀ value ∈ [Value.null], value.Holds held := List.forall_mem_singleton.mpr trivial
  cases starts with
  | operand | left | condition | eitherCondition | callee | arg | bound | returned | expr | stmt =>
      exact ⟨binds, nofun⟩
  | right ran => exact ⟨(parts _ .left ⟨binds, nofun⟩ ran).1, nofun⟩
  | consequence ran => exact ⟨(parts _ .condition ⟨binds, nofun⟩ ran).1, null⟩
  | eitherConsequence ran | alternative ran =>
      exact ⟨(parts _ .eitherCondition ⟨binds, nofun⟩ ran).1, null⟩
  | args ran =>
      rcases parts _ .callee ⟨binds, nofun⟩ ran with ⟨after, calleeHolds⟩
      exact ⟨after, List.forall_mem_singleton.mpr calleeHolds⟩
  | laterArgs ran =>
      rcases parts _ .arg ⟨binds, nofun⟩ ran with ⟨after, argHolds⟩
      refine ⟨after, ?_⟩
      rw [Task.values, ← List.cons_append]
      exact List.forall_mem_append.mpr ⟨values, List.forall_mem_singleton.mpr argHolds⟩
  | apply => exact ⟨binds, values⟩
  | block | program => exact ⟨binds, null⟩
  | laterStmts ran =>
      rcases parts _ .stmt ⟨binds, nofun⟩ ran with ⟨after, valueHolds⟩
      exact ⟨after, List.forall_mem_singleton.mpr valueHolds⟩
  | @body fuel machine identity params body env args sameLength =>
      have applying : (machine.applying (.fn identity params body env) args).store.Binds
        (Value.Holds held) := binds
      exact ⟨applying.inside env params (List.forall_mem_cons.mp values).2, null⟩

/-- An application leaves what its body leaves, or nothing but what the builtin function makes. -/
theorem leaves_of_apply {fuel : Nat} {callee : Value} {args : List Value} {machine : Machine}
    (binds : machine.store.Binds (Value.Holds held))
    (makes : ∀ value, Makes ⟨fuel, .apply callee args, machine⟩ value → value.Holds held)
    (parts : ∀ part, Starts ⟨fuel, .apply callee args, machine⟩ part → part.Leaves held) :
    Leaves held ⟨fuel, .apply callee args, machine⟩ := by
  intro value later ends
  rcases fuel with _ | fuel
  · cases ends
  rcases Option.map_eq_some_iff.mp ends with ⟨⟨result, last⟩, invoked, answered⟩
  cases answered
  have applying : (machine.applying callee args).store.Binds (Value.Holds held) := binds
  have refused : ∀ {fault : Fault},
      Run.answer (fun _ => .error fault) (machine.applying callee args) = some (value, last) →
        last.store.Binds (Value.Holds held) ∧ value.Holds held :=
    leaves_of_answer applying nofun
  cases callee with
  | fn identity params body env =>
      simp only [Value.invoke] at invoked
      split at invoked
      · rename_i sameLength
        rcases Option.map_eq_some_iff.mp invoked with ⟨⟨bodyValue, bodyLater⟩, ran, left⟩
        cases left
        rcases parts _ (.body sameLength) ran with ⟨after, valueHolds⟩
        exact ⟨after, valueHolds.arrived⟩
      · exact refused invoked
  | builtin identity builtin =>
      have ended : Run.answer (fun fresh => builtin.apply fresh args)
        (machine.applying (.builtin identity builtin) args) = some (value, last) := invoked
      have left : last.store.Binds (Value.Holds held) ∧ value.Holds held := by
        refine leaves_of_answer applying (fun made isMade => ?_) ended
        rcases Builtin.cases_of_apply isMade with atomic | ⟨arg, rfl, rfl, rfl⟩
        · exact atomic.holds
        · exact makes _ .typeText
      exact left
  | _ => exact refused invoked

theorem leaves_of_expr {fuel : Nat} {expr : Expr} {machine : Machine}
    (binds : machine.store.Binds (Value.Holds held))
    (makes : ∀ value, Makes ⟨fuel, .expr expr, machine⟩ value → value.Holds held)
    (parts : ∀ part, Starts ⟨fuel, .expr expr, machine⟩ part → part.Leaves held) :
    Leaves held ⟨fuel, .expr expr, machine⟩ := by
  intro value later ends
  cases expr with
  | ident name =>
      cases found : machine.store.get? machine.env name with
      | some bound =>
          cases (Run.resolve_of_bound found).symm.trans ends
          exact ⟨binds, binds.get? found⟩
      | none =>
          have answered := (Run.resolve_of_unbound found).symm.trans ends
          refine leaves_of_answer binds (fun made isMade => ?_) answered
          split at isMade
          · rename_i builtin isName
            cases isMade
            exact makes _ (.builtin found isName)
          · cases isMade
  | int | bool =>
      cases ends
      exact ⟨binds, trivial⟩
  | str text =>
      cases ends
      exact ⟨binds, makes _ .str⟩
  | fn params body =>
      cases ends
      exact ⟨binds, makes _ .fn⟩
  | unary op operand =>
      rcases Run.thenPlain_cases ends with ⟨ran, -⟩ | ⟨first, middle, ran, plain, followed⟩
      · exact parts _ .operand ran
      · refine leaves_of_answer (parts _ .operand ran).1 (fun made isMade => ?_) followed
        exact (UnaryOp.atomic_of_apply isMade).holds
  | binary left op right =>
      rcases Run.thenPlain_cases ends with ⟨ran, -⟩ | ⟨first, middle, leftRan, plain, followed⟩
      · exact parts _ .left ran
      rcases Run.thenPlain_cases followed with
        ⟨ran, -⟩ | ⟨second, last, rightRan, otherPlain, answered⟩
      · exact parts _ (.right leftRan plain) ran
      refine leaves_of_answer (parts _ (.right leftRan plain) rightRan).1
        (fun made isMade => ?_) answered
      rcases BinaryOp.cases_of_apply isMade with atomic | ⟨_, _, _, _, rfl, rfl, rfl, rfl⟩
      · exact atomic.holds
      · exact makes _ (.joined leftRan rightRan)
  | ifThen condition consequence =>
      rcases Run.thenPlain_cases ends with ⟨ran, -⟩ | ⟨first, middle, ran, plain, followed⟩
      · exact parts _ .condition ran
      split at followed
      · rename_i truthy
        exact parts _ (.consequence ran plain truthy) followed
      · cases followed
        exact ⟨(parts _ .condition ran).1, trivial⟩
  | ifElse condition consequence alternative =>
      rcases Run.thenPlain_cases ends with ⟨ran, -⟩ | ⟨first, middle, ran, plain, followed⟩
      · exact parts _ .eitherCondition ran
      split at followed
      · rename_i truthy
        exact parts _ (.eitherConsequence ran plain truthy) followed
      · rename_i falsy
        rw [Bool.not_eq_true] at falsy
        exact parts _ (.alternative ran plain falsy) followed
  | call callee args =>
      rcases Run.thenPlain_cases ends with ⟨ran, -⟩ | ⟨first, middle, ran, plain, followed⟩
      · exact parts _ .callee ran
      · exact parts _ (.args ran plain) followed

/-- What an evaluation finds and makes and what its parts leave is all that it leaves. -/
theorem leaves_of_parts (holds : outer.Holds held)
    (makes : ∀ value, outer.Makes value → value.Holds held)
    (parts : ∀ part, outer.Starts part → part.Leaves held) : outer.Leaves held := by
  rcases outer with ⟨fuel, task, machine⟩
  rcases holds with ⟨binds, values⟩
  cases task with
  | expr expr => exact leaves_of_expr binds makes parts
  | args callee earlier rest =>
      intro value later ends
      cases rest with
      | nil =>
          apply parts _ .apply
          simpa [result?, Task.run, Expr.evalAll] using ends
      | cons arg rest =>
          rcases Run.thenPlain_cases ends with ⟨ran, -⟩ | ⟨first, middle, ran, plain, followed⟩
          · exact parts _ .arg ran
          · rw [Task.run_laterArgs] at followed
            exact parts _ (.laterArgs ran plain) followed
  | stmt stmt =>
      intro value later ends
      cases stmt with
      | letBe name bound =>
          rcases Run.thenPlain_cases ends with ⟨ran, -⟩ | ⟨first, middle, ran, plain, followed⟩
          · exact parts _ .bound ran
          · rcases parts _ .bound ran with ⟨after, boundHolds⟩
            cases followed
            exact ⟨after.set _ name boundHolds, trivial⟩
      | ret returned =>
          rcases Run.thenPlain_cases ends with ⟨ran, -⟩ | ⟨first, middle, ran, plain, followed⟩
          · exact parts _ .returned ran
          · have left := parts _ .returned ran
            cases followed
            exact left
      | expr expr => exact parts _ .expr ends
      | block body => exact parts _ .block ends
  | stmts last rest =>
      intro value later ends
      cases rest with
      | nil =>
          cases ends
          exact ⟨binds, List.forall_mem_singleton.mp values⟩
      | cons stmt rest =>
          rcases Run.thenPlain_cases ends with ⟨ran, -⟩ | ⟨first, middle, ran, plain, followed⟩
          · exact parts _ .stmt ran
          · exact parts _ (.laterStmts ran plain) followed
  | apply callee args => exact leaves_of_apply binds makes parts
  | program program =>
      intro value later ends
      rcases Option.map_eq_some_iff.mp ends with ⟨⟨result, last⟩, ran, answered⟩
      cases answered
      rcases parts _ .program ran with ⟨after, resultHolds⟩
      exact ⟨after, resultHolds.arrived⟩

/-- The objects that an evaluation leaves are among those that it finds and those that are made in
it. -/
theorem leaves_of_holds (evaluation : Evaluation) :
    (∀ maker value, evaluation.Contains maker → maker.Makes value → value.Holds held) →
      evaluation.Holds held → evaluation.Leaves held := by
  induction evaluation using Evaluation.induction with
  | step outer ih =>
      intro makes holds
      -- A part can only be relied on once it is known what it finds, which depends on what the part
      -- before it has left.
      have parts : ∀ part, outer.Starts part → part.Holds held → part.Leaves held := by
        intro part starts
        apply ih part starts
        intro maker value contains
        exact makes maker value (.of_starts starts contains)
      apply leaves_of_parts holds (fun value => makes outer value (.refl outer))
      intro part starts
      exact parts part starts (starts.holds holds parts)

theorem Contains.holds (contains : outer.Contains inner)
    (makes : ∀ maker value, outer.Contains maker → maker.Makes value → value.Holds held)
    (holds : outer.Holds held) : inner.Holds held := by
  induction contains with
  | refl => exact holds
  | @tail middle inner before starts ih =>
      apply starts.holds ih
      intro part partStarts partHolds
      apply leaves_of_holds part ?_ partHolds
      intro maker value partContains
      exact makes maker value ((before.tail partStarts).trans partContains)

end

end Evaluation

end Monkey
