import Monkey.Proofs.Evaluation.Frame
import Monkey.Session.Basic

/-!
# What a session reaches

A session evaluates any number of programs, one after the other, in one environment. Everything that
happens in it happens in an evaluation that one of these programs starts, directly or not. So what a
contract asks for at the start of a session may be relied on wherever the session gets.
-/

namespace Monkey

/-- The sessions in which some programs have been evaluated. -/
inductive Session.Reached : Session → Prop where
  | start : Reached .start
  | evaluated {session : Session} {fuel : Nat} {program : Program} {value : Value} {later : Store}
      (reached : Reached session)
      (ends : program.eval fuel session.env session.store = some (value, later)) :
      Reached { session with store := later }

/-- The evaluations that take place in a session. -/
inductive Evaluation.Reached : Evaluation → Prop where
  | program {session : Session} (reached : session.Reached) (fuel : Nat) (program : Program) :
      Reached ⟨fuel, .program program, ⟨session.env, session.store⟩⟩
  | started {outer inner : Evaluation} (reached : Reached outer) (starts : outer.Starts inner) :
      Reached inner

/-- The sessions in which these programs, and no others, have been evaluated, one after the other. -/
inductive Session.ReachedBy : List Program → Session → Prop where
  | start : ReachedBy [] .start
  | evaluated {programs : List Program} {session : Session} {fuel : Nat} {program : Program}
      {value : Value} {later : Store} (reached : ReachedBy programs session)
      (ends : program.eval fuel session.env session.store = some (value, later)) :
      ReachedBy (programs ++ [program]) { session with store := later }

/-- The evaluations that take place in a session while the last of these programs is evaluated. -/
inductive Evaluation.ReachedBy : List Program → Evaluation → Prop where
  | program {programs : List Program} {session : Session} (reached : session.ReachedBy programs)
      (fuel : Nat) (program : Program) :
      ReachedBy (programs ++ [program]) ⟨fuel, .program program, ⟨session.env, session.store⟩⟩
  | started {programs : List Program} {outer inner : Evaluation} (reached : ReachedBy programs outer)
      (starts : outer.Starts inner) : ReachedBy programs inner

/-- What a session reaches, it reaches by some programs. -/
theorem Session.Reached.exists_programs {session : Session} (reached : session.Reached) :
    ∃ programs, session.ReachedBy programs := by
  induction reached with
  | start => exact ⟨[], .start⟩
  | evaluated _ ends ih =>
      rcases ih with ⟨programs, reachedBy⟩
      exact ⟨_, reachedBy.evaluated ends⟩

theorem Evaluation.Reached.exists_programs {evaluation : Evaluation}
    (reached : evaluation.Reached) : ∃ programs, evaluation.ReachedBy programs := by
  induction reached with
  | program reached fuel program =>
      rcases reached.exists_programs with ⟨programs, reachedBy⟩
      exact ⟨_, .program reachedBy fuel program⟩
  | started _ starts ih =>
      rcases ih with ⟨programs, reachedBy⟩
      exact ⟨programs, reachedBy.started starts⟩

namespace Contract

variable {contract : Contract}

/-- What a contract asks for holds in a session after each of its programs. -/
theorem pre_of_reached (initial : contract.pre ⟨Session.start.env, Session.start.store⟩)
    {session : Session} (reached : session.Reached) :
    contract.pre ⟨session.env, session.store⟩ := by
  induction reached with
  | start => exact initial
  | @evaluated session fuel program value later reached ends ih =>
      rcases Option.map_eq_some_iff.mp ends with ⟨⟨result, last⟩, ran, answered⟩
      cases answered
      have sameEnv : last.env = session.env :=
        (@Evaluation.frame ⟨fuel, .program program, _⟩ _ _ ran).1
      have settled := contract.settled ih (meets_program fuel program ih ran)
      change contract.pre ⟨session.env, last.store⟩
      rw [← sameEnv]
      exact settled

/-- What a contract asks for may be relied on in all evaluations of a session. -/
theorem admits_of_reached (initial : contract.pre ⟨Session.start.env, Session.start.store⟩)
    {evaluation : Evaluation} (reached : evaluation.Reached) : contract.Admits evaluation := by
  induction reached with
  | program reached fuel program => exact ⟨pre_of_reached initial reached, trivial⟩
  | started _ starts ih => exact ih.starts starts

end Contract

end Monkey
