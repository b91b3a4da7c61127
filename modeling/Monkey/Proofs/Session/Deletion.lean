import Monkey.Proofs.Evaluation.Binding
import Monkey.Proofs.Likeness.Trees
import Monkey.Proofs.Session.Lines

/-!
# Leaving lines out

A line that binds nothing at its top level can be left out of a session, and so can a line that is not
read: all other lines put out the same. The line that is left out may have made objects and scopes,
may have returned or failed. But the scopes that were there before are as they were, so that the
session with the line and the one without it stay alike.
-/

namespace Monkey

/-- The line is not read, or binds nothing outside the bodies of its functions. -/
def Idle (line : String) : Prop :=
  (parseText line).2 ≠ [] ∨ Program.binds (parseText line).1 = false

/-- The second list of lines, with their outputs, is the first one, where some idle lines may have been
left out. -/
inductive Thinned : List (String × String) → List (String × String) → Prop where
  | nil : Thinned [] []
  | keep {entry : String × String} {entries kept : List (String × String)}
      (restThinned : Thinned entries kept) : Thinned (entry :: entries) (entry :: kept)
  | leave {line output : String} {entries kept : List (String × String)} (idle : Idle line)
      (restThinned : Thinned entries kept) : Thinned ((line, output) :: entries) kept

namespace Session

/-- Two sessions have paired environments and like stores. -/
def Alike (likeness : Likeness) (pairing : Pairing) (session other : Session) : Prop :=
  Machine.Alike likeness pairing ⟨session.env, session.store⟩ ⟨other.env, other.store⟩

variable {session later other : Session} {fuel : Nat} {line output : String}

/-- Like sessions put out the same for a line, and stay alike. -/
theorem runLine_alike {likeness : Likeness} (sound : likeness.Sound) {pairing : Pairing}
    (covered : (parseText line).2 = [] → Program.Covered likeness (parseText line).1)
    (alike : session.Alike likeness pairing other)
    (ran : session.runLine fuel line = some (output, later)) :
    ∃ larger otherLater, other.runLine fuel line = some (output, otherLater) ∧
      later.Alike likeness larger otherLater := by
  by_cases reads : (parseText line).2 = []
  · have program : parseText line = ((parseText line).1, []) := by rw [← reads]
    rw [runLine_of_reads program, Option.map_eq_some_iff] at ran
    rcases ran with ⟨⟨value, store⟩, ends, answered⟩
    cases answered
    rcases Program.eval_alike sound (covered reads) alike ends with
      ⟨larger, otherValue, otherStore, otherEnds, valueAlike, later⟩
    refine ⟨larger, { other with store := otherStore }, ?_, later⟩
    rw [runLine_of_ends program otherEnds, valueAlike.code_eq]
  · rw [runLine_of_errors reads] at ran ⊢
    cases ran
    exact ⟨pairing, other, rfl, alike⟩

theorem intact_of_idle (idle : Idle line) (ran : session.runLine fuel line = some (output, later)) :
    later.env = session.env ∧ session.store.Intact later.store := by
  by_cases reads : (parseText line).2 = []
  · have program : parseText line = ((parseText line).1, []) := by rw [← reads]
    have unbound := idle.resolve_left (not_not_intro reads)
    rw [runLine_of_reads program, Option.map_eq_some_iff] at ran
    rcases ran with ⟨⟨value, store⟩, ends, answered⟩
    cases answered
    exact ⟨rfl, Program.intact_of_eval unbound ends⟩
  · rw [runLine_of_errors reads] at ran
    cases ran
    exact ⟨rfl, .refl _⟩

theorem Alike.leave {likeness : Likeness} {pairing : Pairing}
    (alike : session.Alike likeness pairing other) (idle : Idle line)
    (ran : session.runLine fuel line = some (output, later)) :
    later.Alike likeness pairing other := by
  rcases intact_of_idle idle ran with ⟨sameEnv, intact⟩
  refine ⟨?_, alike.store.intact intact (.refl _)⟩
  change pairing.envs later.env other.env
  rw [sameEnv]
  exact alike.env

theorem Runs.thinned {last : Session} {entries kept : List (String × String)} {pairing : Pairing}
    (runs : session.Runs entries last) (alike : session.Alike .full pairing other)
    (thinned : Thinned entries kept) : ∃ keptLast, other.Runs kept keptLast := by
  -- A line that both sessions run extends the pairing. One that is left out only adds to the first
  -- store what the pairing does not speak of.
  induction runs generalizing other kept pairing with
  | nil =>
      cases thinned
      exact ⟨other, .nil⟩
  | cons ran _ ih =>
      cases thinned with
      | keep restThinned =>
          rcases runLine_alike Likeness.sound_full (fun _ => Program.covered_full _) alike ran with
            ⟨larger, otherLater, otherRan, laterAlike⟩
          rcases ih laterAlike restThinned with ⟨keptLast, keptRuns⟩
          exact ⟨keptLast, .cons otherRan keptRuns⟩
      | leave idle restThinned => exact ih (alike.leave idle ran) restThinned

/-- If lines are left out of a session that are not read or bind nothing, all other lines come to an
end as before, and with the same output. -/
theorem runs_of_thinned {last : Session} (reached : session.Reached)
    {entries kept : List (String × String)} (runs : session.Runs entries last)
    (thinned : Thinned entries kept) : ∃ keptLast, session.Runs kept keptLast := by
  exact runs.thinned reached.closed.alike thinned

/-- Lines are left out that call a function with a binding in its body, and that are not read. -/
theorem runs_of_thinned_comparison :
    ∃ last, Session.start.Runs [("let s = \"a\";", "null"), ("s == s", "true")] last := by
  have binds : parseText "let s = \"a\";" = ([.letBe "s" (.str "a")], []) := by decide +kernel
  have calls : parseText "fn(t) { let s = t; return s; }(\"b\")" =
      ([.expr (.call (.fn ["t"] [.letBe "s" (.ident "t"), .ret (.ident "s")]) [.str "b"])], []) := by
    decide +kernel
  have unread : (parseText ")").2 ≠ [] := by decide +kernel
  have compares : parseText "s == s" = ([.expr (.binary (.ident "s") .equal (.ident "s"))], []) := by
    decide +kernel
  have runs : ∃ last, Session.start.Runs
      [("let s = \"a\";", "null"), ("fn(t) { let s = t; return s; }(\"b\")", "\"b\""),
        (")", complaint (parseText ")").2), ("s == s", "true")] last :=
    ⟨_, .cons (@runLine_of_ends _ 0 _ _ binds .null _ rfl)
      (.cons (@runLine_of_ends _ 1 _ _ calls (.str _ "b") _ rfl)
        (.cons (@runLine_of_errors _ 0 _ unread)
          (.cons (@runLine_of_ends _ 0 _ _ compares (.bool true) _ rfl) .nil)))⟩
  rcases runs with ⟨last, runs⟩
  have callsIdle : Idle "fn(t) { let s = t; return s; }(\"b\")" := .inr (by rw [calls]; rfl)
  exact runs_of_thinned .start runs (.keep (.leave callsIdle (.leave (.inl unread) (.keep .nil))))

end Session

end Monkey
