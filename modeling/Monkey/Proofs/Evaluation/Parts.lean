import Mathlib.Logic.Relation
import Monkey.Proofs.Evaluation.History

/-!
# The parts of an evaluation

The evaluations that one evaluation starts are its parts. They are done one after the other, and an
evaluation that comes to an end has brought all of its parts to an end before. Each part has less to
evaluate or less calls that may be open, and so what holds of an evaluation if it holds of its parts
holds of all evaluations.
-/

namespace Monkey

/-! ### What ends before a run ends -/

namespace Run

/-- Wherever the run ends, the store has moved on. -/
def Advances (run : Run) : Prop :=
  ∀ ⦃machine value later⦄, run machine = some (value, later) → machine.store.Later later.store

theorem Advances.value (value : Value) : (Run.value value).Advances := by
  intro machine result later ends
  cases ends
  exact .refl _

theorem Advances.answer (make : Nat → Except Fault Value) : (Run.answer make).Advances := by
  intro machine value later ends
  simp only [Run.answer, Store.answer] at ends
  split at ends
  · cases ends
    exact (Store.Later.refl machine.store).issue
  · cases ends
    exact (Store.Later.refl machine.store).record _

theorem Advances.bind (name : String) (value : Value) : (Run.bind name value).Advances := by
  intro machine result later ends
  cases ends
  exact (Store.Later.refl machine.store).set _ _ _

/-- A run that another one may follow either ends it all, or is followed. -/
theorem thenPlain_cases {first : Run} {next : Value → Run} {machine later : Machine} {value : Value}
    (ends : first.thenPlain next machine = some (value, later)) :
    first machine = some (value, later) ∧ value.isCarrier = true ∨
      ∃ held middle, first machine = some (held, middle) ∧ held.isCarrier = false ∧
        next held middle = some (value, later) := by
  simp only [thenPlain] at ends
  split at ends
  · cases ends
  · rename_i held middle ran
    cases carrier : held.isCarrier with
    | true =>
        rw [carrier, if_pos rfl] at ends
        cases ends
        exact .inl ⟨ran, carrier⟩
    | false =>
        rw [carrier, if_neg Bool.false_ne_true] at ends
        exact .inr ⟨held, middle, ran, carrier, ends⟩

theorem Advances.thenPlain {first : Run} {next : Value → Run} (firstAdvances : first.Advances)
    (nextAdvances : ∀ value, (next value).Advances) : (first.thenPlain next).Advances := by
  intro machine value later ends
  rcases thenPlain_cases ends with ⟨ran, -⟩ | ⟨held, middle, ran, -, followed⟩
  · exact firstAdvances ran
  · exact (firstAdvances ran).trans (nextAdvances held followed)

/-- What another run follows ends before. -/
theorem ended_of_thenPlain {first : Run} {next : Value → Run} {machine later : Machine}
    {value : Value} (ends : first.thenPlain next machine = some (value, later))
    (nextAdvances : ∀ value, (next value).Advances) :
    ∃ held middle, first machine = some (held, middle) ∧ middle.store.Later later.store := by
  rcases thenPlain_cases ends with ⟨ran, -⟩ | ⟨held, middle, ran, -, followed⟩
  · exact ⟨value, later, ran, .refl _⟩
  · exact ⟨held, middle, ran, nextAdvances held followed⟩

/-- What follows a run is evaluated where that run has got. -/
theorem followed_of_thenPlain {first : Run} {next : Value → Run} {machine middle : Machine}
    {held : Value} {ended : Value × Machine} (ends : first.thenPlain next machine = some ended)
    (ran : first machine = some (held, middle)) (plain : held.isCarrier = false) :
    next held middle = some ended := by
  rwa [thenPlain_of_plain ran plain] at ends

end Run

theorem Task.advances (fuel : Nat) (task : Task) : (task.run fuel).Advances :=
  fun _ _ _ ends => Task.later_of_run ends

/-- The rest of the arguments is a task of its own. -/
theorem Task.run_laterArgs (fuel : Nat) (callee value : Value) (earlier : List Value)
    (rest : List Expr) :
    Expr.evalAll (Value.apply fuel)
        (fun values => Value.apply fuel callee (earlier ++ value :: values)) rest =
      (Task.args callee (earlier ++ [value]) rest).run fuel := by
  simp [Task.run]

namespace Evaluation

/-- An evaluation that has ended has brought its parts to an end before. -/
theorem Starts.ended {outer inner : Evaluation} (starts : outer.Starts inner) {value : Value}
    {later : Machine} (ends : outer.result? = some (value, later)) :
    ∃ result last, inner.result? = some (result, last) ∧ last.store.Later later.store := by
  have branch : ∀ {fuel : Nat} {condition : Value} {consequence : List Stmt} {other : Run},
      other.Advances → Run.Advances (if condition.isTruthy then
        (Task.stmts .null consequence).run fuel else other) := by
    intro fuel condition consequence other advances
    split
    · exact Task.advances _ _
    · exact advances
  cases starts with
  | operand => exact Run.ended_of_thenPlain ends fun _ => .answer _
  | @left fuel machine op left right =>
      exact Run.ended_of_thenPlain ends fun _ =>
        (Task.advances fuel (.expr right)).thenPlain fun _ => .answer _
  | right ran plain =>
      exact Run.ended_of_thenPlain (Run.followed_of_thenPlain ends ran plain) fun _ => .answer _
  | condition => exact Run.ended_of_thenPlain ends fun _ => branch (.value _)
  | @eitherCondition fuel _ _ _ alternative =>
      exact Run.ended_of_thenPlain ends fun _ =>
        branch (Task.advances fuel (.stmts .null alternative))
  | consequence ran plain truthy | eitherConsequence ran plain truthy =>
      have followed := Run.followed_of_thenPlain ends ran plain
      rw [if_pos truthy] at followed
      exact ⟨value, later, followed, .refl _⟩
  | alternative ran plain falsy =>
      have followed := Run.followed_of_thenPlain ends ran plain
      rw [falsy, if_neg Bool.false_ne_true] at followed
      exact ⟨value, later, followed, .refl _⟩
  | @callee fuel _ _ args =>
      exact Run.ended_of_thenPlain ends fun value => Task.advances fuel (.args value [] args)
  | args ran plain => exact ⟨value, later, Run.followed_of_thenPlain ends ran plain, .refl _⟩
  | @arg fuel _ callee earlier _ rest =>
      refine Run.ended_of_thenPlain ends fun value => ?_
      rw [Task.run_laterArgs]
      exact Task.advances fuel _
  | laterArgs ran plain =>
      have followed := Run.followed_of_thenPlain ends ran plain
      rw [Task.run_laterArgs] at followed
      exact ⟨value, later, followed, .refl _⟩
  | apply =>
      refine ⟨value, later, ?_, .refl _⟩
      simpa [result?, Task.run, Expr.evalAll] using ends
  | bound => exact Run.ended_of_thenPlain ends fun _ => .bind _ _
  | returned => exact Run.ended_of_thenPlain ends fun _ => .value _
  | expr => exact ⟨value, later, ends, .refl _⟩
  | block => exact ⟨value, later, ends, .refl _⟩
  | @stmt fuel _ _ _ rest =>
      exact Run.ended_of_thenPlain ends fun value => Task.advances fuel (.stmts value rest)
  | laterStmts ran plain =>
      exact ⟨value, later, Run.followed_of_thenPlain ends ran plain, .refl _⟩
  | body sameLength =>
      simp only [result?, Task.run, Value.apply, Value.invoke, sameLength, if_true,
        Option.map_map, Option.map_eq_some_iff] at ends
      rcases ends with ⟨⟨result, last⟩, ran, answered⟩
      cases answered
      exact ⟨result, last, ran, (Store.Later.refl last.store).record .exited⟩
  | program =>
      rcases Option.map_eq_some_iff.mp ends with ⟨⟨result, last⟩, ran, answered⟩
      cases answered
      exact ⟨result, _, ran, .refl _⟩

/-- The part that an evaluation starts with. -/
def first? : Evaluation → Option Evaluation
  | ⟨fuel, .expr (.unary _ tree), machine⟩ | ⟨fuel, .expr (.binary tree _ _), machine⟩
  | ⟨fuel, .expr (.ifThen tree _), machine⟩ | ⟨fuel, .expr (.ifElse tree _ _), machine⟩
  | ⟨fuel, .expr (.call tree _), machine⟩ | ⟨fuel, .args _ _ (tree :: _), machine⟩
  | ⟨fuel, .stmt (.letBe _ tree), machine⟩ | ⟨fuel, .stmt (.ret tree), machine⟩
  | ⟨fuel, .stmt (.expr tree), machine⟩ => some ⟨fuel, .expr tree, machine⟩
  | ⟨fuel, .stmts _ (stmt :: _), machine⟩ => some ⟨fuel, .stmt stmt, machine⟩
  | ⟨fuel, .stmt (.block body), machine⟩ | ⟨fuel, .program body, machine⟩ =>
    some ⟨fuel, .stmts .null body, machine⟩
  | ⟨fuel, .args callee args [], machine⟩ => some ⟨fuel, .apply callee args, machine⟩
  | ⟨fuel + 1, .apply (.fn identity params body env) args, machine⟩ =>
    some ⟨fuel, .stmts .null body,
      (machine.applying (.fn identity params body env) args).inside env params args⟩
  | _ => none

/-- What there is to do after the part that a task starts with, if that has this value. -/
def next (value : Value) : Task → Task
  | .expr (.binary _ _ right) => .expr right
  | .expr (.ifThen _ consequence) => .stmts .null consequence
  | .expr (.ifElse _ consequence alternative) =>
    .stmts .null (if value.isTruthy then consequence else alternative)
  | .expr (.call _ args) => .args value [] args
  | .args callee earlier (_ :: rest) => .args callee (earlier ++ [value]) rest
  | .stmts _ (_ :: rest) => .stmts value rest
  | task => task

/-- An evaluation has a first part, and at most one more, which that one leads to. -/
theorem Starts.first_or_next {outer part : Evaluation} (starts : outer.Starts part) :
    outer.first? = some part ∨ ∃ first value later, outer.first? = some first ∧
      first.result? = some (value, later) ∧ part = ⟨outer.fuel, next value outer.task, later⟩ := by
  cases starts with
  | right ran | consequence ran | args ran | laterArgs ran | laterStmts ran =>
      exact .inr ⟨_, _, _, rfl, ran, rfl⟩
  | eitherConsequence ran _ truthy =>
      refine .inr ⟨_, _, _, rfl, ran, ?_⟩
      rw [next, if_pos truthy]
  | alternative ran _ falsy =>
      refine .inr ⟨_, _, _, rfl, ran, ?_⟩
      rw [next, if_neg (Bool.not_eq_true _ ▸ falsy)]
  | _ => exact .inl rfl

/-- The first evaluation has ended where the second one starts, or before. -/
def Before (first second : Evaluation) : Prop :=
  ∃ value later, first.result? = some (value, later) ∧ later.store.Grows second.machine.store

/-- The parts of an evaluation are done one after the other. -/
theorem Starts.order {outer first second : Evaluation} (starts : outer.Starts first)
    (others : outer.Starts second) : first = second ∨ first.Before second ∨ second.Before first := by
  rcases starts.first_or_next with isFirst | ⟨_, value, later, isFirst, ran, rfl⟩
  · rcases others.first_or_next with isOther | ⟨_, value, later, isOther, ran, rfl⟩ <;>
      cases isFirst.symm.trans isOther
    · exact .inl rfl
    · exact .inr (.inl ⟨value, later, ran, .refl _⟩)
  · rcases others.first_or_next with isOther | ⟨_, _, _, isOther, otherRan, rfl⟩ <;>
      cases isFirst.symm.trans isOther
    · exact .inr (.inr ⟨value, later, ran, .refl _⟩)
    · cases ran.symm.trans otherRan
      exact .inl rfl

end Evaluation

/-! ### Induction on the parts -/

/-- How much there is to evaluate, the bodies of functions that are applied apart. -/
noncomputable def Task.size : Task → Nat
  | .expr tree => sizeOf tree + 1
  | .args _ _ rest => sizeOf rest + 1
  | .stmt tree => sizeOf tree + 1
  | .stmts _ rest => sizeOf rest + 1
  | .apply _ _ => 0
  | .program trees => sizeOf trees + 2

namespace Evaluation

theorem Starts.lt {outer inner : Evaluation} (starts : outer.Starts inner) :
    Prod.Lex (· < ·) (· < ·) (inner.fuel, inner.task.size) (outer.fuel, outer.task.size) := by
  cases starts with
  | body => exact .left _ _ (Nat.lt_succ_self _)
  | _ =>
      apply Prod.Lex.right
      simp [Task.size]
      try omega

/-- What holds of an evaluation if it holds of all of its parts holds of all evaluations. -/
theorem induction {motive : Evaluation → Prop}
    (step : ∀ outer, (∀ inner, outer.Starts inner → motive inner) → motive outer)
    (evaluation : Evaluation) : motive evaluation :=
  step evaluation fun inner _ => induction step inner
termination_by (evaluation.fuel, evaluation.task.size)
decreasing_by exact Starts.lt ‹_›

/-- The first evaluation starts the second one, directly or not, or is that one. -/
def Contains : Evaluation → Evaluation → Prop := Relation.ReflTransGen Starts

namespace Contains

variable {outer inner : Evaluation}

theorem refl (evaluation : Evaluation) : evaluation.Contains evaluation :=
  Relation.ReflTransGen.refl

theorem of_starts {part : Evaluation} (starts : outer.Starts part) (contains : part.Contains inner) :
    outer.Contains inner :=
  Relation.ReflTransGen.head starts contains

theorem cases_head (contains : outer.Contains inner) :
    outer = inner ∨ ∃ part, outer.Starts part ∧ part.Contains inner :=
  Relation.ReflTransGen.cases_head contains

theorem later (contains : outer.Contains inner) :
    outer.machine.store.Later inner.machine.store := by
  induction contains with
  | refl => exact .refl _
  | tail _ starts ih => exact ih.trans starts.later

theorem ended (contains : outer.Contains inner) {value : Value} {later : Machine}
    (ends : outer.result? = some (value, later)) :
    ∃ result last, inner.result? = some (result, last) ∧ last.store.Later later.store := by
  induction contains with
  | refl => exact ⟨value, later, ends, .refl _⟩
  | tail _ starts ih =>
      rcases ih with ⟨result, last, middleEnds, laterStore⟩
      rcases starts.ended middleEnds with ⟨part, partLast, partEnds, partLater⟩
      exact ⟨part, partLast, partEnds, partLater.trans laterStore⟩

end Contains

end Evaluation

end Monkey
