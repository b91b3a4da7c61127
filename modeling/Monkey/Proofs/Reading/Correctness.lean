import Monkey.Proofs.Reading.Completeness
import Monkey.Proofs.Reading.Soundness

/-!
# Correctness of reading

Reading without an error and derivation by the grammar are the same, for every list of tokens.
Since reading is a function, the grammar gives a list of tokens at most one tree.
-/

namespace Monkey

/-- With the end of the source behind them, the tokens are read without an error exactly as the
grammar derives them. -/
theorem Reading.feed_end_iff {tokens : List Token} (noEnd : ∀ token ∈ tokens, token.kind ≠ .eof)
    {finish : Token} (finishKind : finish.kind = .eof) (program : Program) :
    Outcome.errors (Reading.start.feed (tokens ++ [finish])).1 = [] ∧
        Outcome.program (Reading.start.feed (tokens ++ [finish])).1 = program ↔
      ∃ bare, Program.Spelled bare tokens program := by
  constructor
  · rintro ⟨clean, rfl⟩
    exact (Program.spelled_of_feed noEnd finishKind clean).2
  · rintro ⟨bare, spelled⟩
    simp [spelled.feed_end finishKind]

/-- Where the tokens say themselves that the source ends, a second end adds nothing. -/
theorem Reading.feed_second_end {tokens : List Token} {first : Token}
    (firstKind : first.kind = .eof) (second : Token)
    (clean : Outcome.errors (Reading.start.feed (tokens ++ [first])).1 = []) :
    (Reading.start.feed (tokens ++ [first] ++ [second])).1 =
      (Reading.start.feed (tokens ++ [first])).1 := by
  have ended : (Reading.start.feed (tokens ++ [first])).2 = .ended := by
    simp only [Reading.feed_append, Reading.feed_singleton, Step.fst_after, Outcome.errors_append,
      List.append_eq_nil_iff, Step.snd_after] at clean ⊢
    exact Reading.step_end firstKind clean.2
  rw [Reading.feed_append, ended]
  simp [Reading.step]

/-- A list of tokens that holds the end of the source in no place but its last is read without an
error as a program if and only if the grammar derives the program from it. -/
theorem parse_eq_iff_spelled (tokens ending : List Token) (program : Program)
    (noEnd : ∀ token ∈ tokens, token.kind ≠ .eof)
    (ends : ending = [] ∨ ∃ finish : Token, finish.kind = .eof ∧ ending = [finish]) :
    parse (tokens ++ ending) = (program, []) ↔ ∃ bare, Program.Spelled bare tokens program := by
  rw [parse, outcomesOf_eq_feed, Prod.mk.injEq, and_comm]
  generalize Parser.finish _ = position
  have implicitKind : (Token.eof position).kind = .eof := rfl
  rcases ends with rfl | ⟨finish, finishKind, rfl⟩
  · rw [List.append_nil]
    exact Reading.feed_end_iff noEnd implicitKind program
  · rw [← Reading.feed_end_iff noEnd finishKind program]
    -- The errors up to the first end are among all errors.
    have earlier : ∀ {rest : List Token},
        Outcome.errors (Reading.start.feed (tokens ++ [finish] ++ rest)).1 = [] →
          Outcome.errors (Reading.start.feed (tokens ++ [finish])).1 = [] := by
      intro rest clean
      rw [Reading.feed_append, Step.fst_after, Outcome.errors_append,
        List.append_eq_nil_iff] at clean
      exact clean.1
    constructor
    · rintro ⟨clean, rfl⟩
      rw [Reading.feed_second_end finishKind _ (earlier clean)]
      exact ⟨earlier clean, rfl⟩
    · rintro ⟨clean, rfl⟩
      rw [Reading.feed_second_end finishKind _ clean]
      exact ⟨clean, rfl⟩

/-- The tokens of `a - b - c * d < e == f` spell the tree of `(((a - b) - (c * d)) < e) == f`. -/
theorem spelled_operations_of_all_powers :
    ∃ bare, Program.Spelled bare
      [⟨.ident, "a", ⟨0, 1⟩⟩, ⟨.symbol .minus, "-", ⟨2, 3⟩⟩, ⟨.ident, "b", ⟨4, 5⟩⟩,
        ⟨.symbol .minus, "-", ⟨6, 7⟩⟩, ⟨.ident, "c", ⟨8, 9⟩⟩, ⟨.symbol .star, "*", ⟨10, 11⟩⟩,
        ⟨.ident, "d", ⟨12, 13⟩⟩, ⟨.symbol .less, "<", ⟨14, 15⟩⟩, ⟨.ident, "e", ⟨16, 17⟩⟩,
        ⟨.symbol .equal, "==", ⟨18, 20⟩⟩, ⟨.ident, "f", ⟨21, 22⟩⟩]
      [.expr (.binary
        (.binary
          (.binary (.binary (.ident "a") .subtract (.ident "b")) .subtract
            (.binary (.ident "c") .multiply (.ident "d")))
          .less (.ident "e"))
        .equal (.ident "f"))] :=
  (parse_eq_iff_spelled _ [.eof 22] _ (by decide) (.inr ⟨_, rfl, rfl⟩)).mp (by rfl)

end Monkey
