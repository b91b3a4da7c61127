import Monkey.Proofs.Reading.Boundary
import Monkey.Proofs.Reading.Correctness
import Monkey.Proofs.Reading.Course
import Monkey.Proofs.Token.Joining

/-!
# Reading joined texts

A source text that is read without an error and whose last token is a semicolon can be joined with
another one: what both are read as, one after the other, is what the whole is read as.
-/

namespace Monkey

/-- The tokens of a source text without the end. -/
def tokensBeforeEnd (source : String) : List Token := (tokenize source).dropLast

theorem tokenize_eq_append_end (source : String) :
    ∃ finish, tokenize source = tokensBeforeEnd source ++ [.eof finish] ∧
      ∀ token ∈ tokensBeforeEnd source, token.kind ≠ .eof := by
  rcases (segmented_tokenize source).ends with ⟨front, finish, tokens, noEnd⟩
  refine ⟨finish, ?_⟩
  rw [tokensBeforeEnd, tokens, List.dropLast_concat]
  exact ⟨rfl, noEnd⟩

theorem parse_end_eq_iff {tokens : List Token} {finish : Token} (finishKind : finish.kind = .eof)
    (program : Program) :
    parse (tokens ++ [finish]) = (program, []) ↔
      Outcome.errors (Reading.start.feed (tokens ++ [finish])).1 = [] ∧
        Outcome.program (Reading.start.feed (tokens ++ [finish])).1 = program := by
  rw [parse, outcomesOf_end finishKind, Prod.mk.injEq, and_comm]

theorem parseText_eq_iff_spelled {source : String} {program : Program} :
    parseText source = (program, []) ↔
      ∃ bare, Program.Spelled bare (tokensBeforeEnd source) program := by
  rcases tokenize_eq_append_end source with ⟨finish, tokens, noEnd⟩
  rw [parseText, tokens, parse_end_eq_iff rfl]
  exact Reading.feed_end_iff noEnd rfl program

/-- A source text is read as a program if its tokens, wherever they stand, spell that program. -/
theorem parseText_eq_iff {source : String} {program : Program} :
    parseText source = (program, []) ↔
      ∃ bare, Program.Spelled bare ((tokensBeforeEnd source).map Token.unplaced) program := by
  rcases tokenize_eq_append_end source with ⟨finish, tokens, noEnd⟩
  have noEndUnplaced : ∀ token ∈ (tokensBeforeEnd source).map Token.unplaced, token.kind ≠ .eof := by
    simpa using noEnd
  have finishKind : (Token.eof finish).unplaced.kind = .eof := rfl
  rw [← Reading.feed_end_iff noEndUnplaced finishKind, ← parse_end_eq_iff finishKind, parseText,
    tokens, ← parse_unplaced_eq_iff, List.map_append, List.map_singleton]

theorem closed_of_parseText {source : String} {program : Program}
    (reads : parseText source = (program, [])) : ∀ token ∈ tokenize source, ¬ token.Unclosed := by
  rcases tokenize_eq_append_end source with ⟨finish, tokens, noEnd⟩
  rw [parseText, tokens] at reads
  have clean := ((parse_end_eq_iff rfl program).mp reads).1
  intro token member unclosed
  rw [tokens, List.mem_append, List.mem_singleton] at member
  rcases member with member | rfl
  · exact Reading.legal_of_feed noEnd clean token member unclosed.1
  · cases unclosed.1

theorem unplaced_tokensBeforeEnd_append {first blank second : String}
    (spacing : Spacing blank.toList) (nonempty : blank ≠ "")
    (closed : ∀ token ∈ tokenize first, ¬ token.Unclosed) :
    (tokensBeforeEnd (first ++ blank ++ second)).map Token.unplaced =
      (tokensBeforeEnd first).map Token.unplaced ++
        (tokensBeforeEnd second).map Token.unplaced := by
  rcases tokenize_eq_append_end second with ⟨finish, tokens, _⟩
  rw [tokensBeforeEnd, tokenize_append spacing nonempty closed, tokens, List.map_append,
    List.map_singleton, ← List.append_assoc, List.dropLast_concat, List.map_append, List.map_map]
  rfl

/-- Two texts, of which the first one leaves nothing open, are read one after the other. -/
theorem parseText_append {first blank second : String} {firstProgram secondProgram : Program}
    (spacing : Spacing blank.toList) (nonempty : blank ≠ "")
    (firstReads : parseText first = (firstProgram, []))
    (firstCloses : Closed (tokensBeforeEnd first))
    (secondReads : parseText second = (secondProgram, [])) :
    parseText (first ++ blank ++ second) = (firstProgram ++ secondProgram, []) := by
  rcases parseText_eq_iff.mp firstReads with ⟨bare, firstSpelled⟩
  rcases parseText_eq_iff.mp secondReads with ⟨lastBare, secondSpelled⟩
  have closed : Closed ((tokensBeforeEnd first).map Token.unplaced) := by
    intro token last
    rw [List.getLast?_map, Option.mem_def, Option.map_eq_some_iff] at last
    rcases last with ⟨original, originalLast, rfl⟩
    exact firstCloses original originalLast
  obtain rfl := firstSpelled.bare_eq_false closed
  refine parseText_eq_iff.mpr ⟨lastBare, ?_⟩
  rw [unplaced_tokensBeforeEnd_append spacing nonempty (closed_of_parseText firstReads)]
  exact firstSpelled.append secondSpelled

end Monkey
