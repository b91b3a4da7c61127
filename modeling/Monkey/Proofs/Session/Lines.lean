import Monkey.Proofs.Evaluation.Limit
import Monkey.Session.Basic

/-!
# Lines of a session

A session runs line after line. Each run must come to an end, within some limit on open calls; which
limit that is does not matter.
-/

namespace Monkey

namespace Session

/-- The session runs lines, each of which is paired with its output, and becomes the last session. -/
inductive Runs : Session → List (String × String) → Session → Prop where
  | nil {session : Session} : Runs session [] session
  | cons {session later last : Session} {fuel : Nat} {line output : String}
      {rest : List (String × String)} (ran : session.runLine fuel line = some (output, later))
      (restRuns : Runs later rest last) : Runs session ((line, output) :: rest) last

variable {session later : Session} {fuel : Nat} {line output : String}

theorem runLine_of_reads {program : Program} (reads : parseText line = (program, [])) :
    session.runLine fuel line =
      (program.eval fuel session.env session.store).map fun (value, later) =>
        (value.code, { session with store := later }) := by
  rw [runLine, reads]

theorem runLine_of_ends {program : Program} (reads : parseText line = (program, []))
    {value : Value} {store : Store}
    (ends : program.eval fuel session.env session.store = some (value, store)) :
    session.runLine fuel line = some (value.code, { session with store := store }) := by
  rw [runLine_of_reads reads, ends, Option.map_some]

theorem runLine_of_errors (fails : (parseText line).2 ≠ []) :
    session.runLine fuel line = some (complaint (parseText line).2, session) := by
  rw [runLine]
  split
  · rename_i reads
    rw [reads] at fails
    exact absurd rfl fails
  · rename_i other reads
    rw [reads]

theorem runLine_mono {limit : Nat} (le : fuel ≤ limit)
    (ran : session.runLine fuel line = some (output, later)) :
    session.runLine limit line = some (output, later) := by
  by_cases reads : (parseText line).2 = []
  · have program : parseText line = ((parseText line).1, []) := by rw [← reads]
    rw [runLine_of_reads program, Option.map_eq_some_iff] at ran ⊢
    rcases ran with ⟨reached, ends, answered⟩
    exact ⟨reached, Program.eval_mono le ends, answered⟩
  · rwa [runLine_of_errors reads] at ran ⊢

/-- No other limit makes a line end in another way. -/
theorem runLine_unique {otherFuel : Nat} {otherOutput : String} {otherLater : Session}
    (ran : session.runLine fuel line = some (output, later))
    (otherRan : session.runLine otherFuel line = some (otherOutput, otherLater)) :
    output = otherOutput ∧ later = otherLater := by
  have higher := runLine_mono (Nat.le_max_left fuel otherFuel) ran
  have otherHigher := runLine_mono (Nat.le_max_right fuel otherFuel) otherRan
  rw [higher] at otherHigher
  cases otherHigher
  exact ⟨rfl, rfl⟩

/-- What the lines of a session put out, and where the session gets, is determined by the lines. -/
theorem Runs.unique {entries others : List (String × String)} {last otherLast : Session}
    (runs : Runs session entries last) (othersRun : Runs session others otherLast)
    (sameLines : entries.map Prod.fst = others.map Prod.fst) : entries = others ∧ last = otherLast := by
  induction runs generalizing others with
  | nil =>
      cases othersRun with
      | nil => exact ⟨rfl, rfl⟩
      | cons => cases sameLines
  | @cons session later last fuel line output rest ran _ ih =>
      cases othersRun with
      | nil => cases sameLines
      | @cons _ otherLater _ otherFuel otherLine otherOutput otherRest otherRan othersRun =>
          simp only [List.map_cons, List.cons.injEq] at sameLines
          rcases sameLines with ⟨rfl, sameRest⟩
          rcases runLine_unique ran otherRan with ⟨rfl, rfl⟩
          rcases ih othersRun sameRest with ⟨rfl, rfl⟩
          exact ⟨rfl, rfl⟩

theorem Runs.append {first second : List (String × String)} {middle last : Session}
    (runs : session.Runs first middle) (laterRuns : middle.Runs second last) :
    session.Runs (first ++ second) last := by
  induction runs with
  | nil => exact laterRuns
  | cons ran _ ih => exact .cons ran (ih laterRuns)

theorem Runs.exists_middle {first second : List (String × String)} {last : Session}
    (runs : session.Runs (first ++ second) last) :
    ∃ middle, session.Runs first middle ∧ middle.Runs second last := by
  induction first generalizing session with
  | nil => exact ⟨session, .nil, runs⟩
  | cons entry rest ih =>
      cases runs with
      | cons ran restRuns =>
          rcases ih restRuns with ⟨middle, firstRuns, laterRuns⟩
          exact ⟨middle, .cons ran firstRuns, laterRuns⟩

end Session

end Monkey
