import Monkey.Proofs.Reading.Boundary
import Monkey.Proofs.Reading.Correctness

/-!
# Reading goes statement by statement

Tokens that are read without an error are a program that is complete, unless the next token goes on with
its last statement. A semicolon behind that statement rules this out, and so does a next token that is no
operator, no parenthesis, no second branch and no semicolon. What follows is then read as if it stood
alone, errors included.
-/

namespace Monkey

/-- The source ends behind the last token, whatever stands in front of it. -/
theorem Parser.finish_append (first : List Token) {second : List Token} (nonempty : second ≠ []) :
    (Parser.ofTokens (first ++ second)).finish = (Parser.ofTokens second).finish := by
  simp [Parser.ofTokens, List.getLast?_append, List.getLast?_eq_some_getLast nonempty]

/-- What is read without an error has been spelled. -/
theorem exists_spelled_of_parse {tokens : List Token}
    (noEnd : ∀ token ∈ tokens, token.kind ≠ .eof) (clean : (parse tokens).2 = []) :
    ∃ bare program, Program.Spelled bare tokens program ∧
      outcomesOf tokens = program.map .parsed := by
  rw [parse, outcomesOf_eq_feed] at clean
  rcases (Reading.feed_end_iff noEnd rfl _).mp ⟨clean, rfl⟩ with ⟨bare, spelled⟩
  refine ⟨bare, _, spelled, ?_⟩
  rw [outcomesOf_eq_feed]
  exact congrArg Prod.fst (spelled.feed_end rfl)

/-- Tokens behind a complete program are read as if they stood alone. -/
theorem outcomesOf_append {first second : List Token}
    (noEnd : ∀ token ∈ first, token.kind ≠ .eof) (clean : (parse first).2 = [])
    (complete : Closed first ∨ ∀ token ∈ second.head?, token.Breaks) :
    outcomesOf (first ++ second) = outcomesOf first ++ outcomesOf second := by
  rcases second with _ | ⟨token, rest⟩
  · have nothing : outcomesOf [] = [] := rfl
    rw [nothing, List.append_nil, List.append_nil]
  rcases exists_spelled_of_parse noEnd clean with ⟨bare, program, spelled, outcomes⟩
  have breaks : bare = true → token.Breaks := by
    rintro rfl
    rcases complete with closed | breaks
    · cases spelled.bare_eq_false closed
    · exact breaks token rfl
  have fed := (spelled.feed .program).feed_append breaks
    (rest ++ [.eof (Parser.ofTokens (token :: rest)).finish])
  rw [StmtHole.fillAll_program] at fed
  rw [outcomes, outcomesOf_eq_feed, outcomesOf_eq_feed,
    Parser.finish_append first (List.cons_ne_nil _ _), List.append_assoc, List.cons_append]
  exact congrArg Prod.fst fed

/-- Behind a program without errors, which ends with a semicolon or is not gone on with, tokens are
read as they are alone: the statements are those of both, and the errors those of the second part. -/
theorem parse_append {first second : List Token} (noEnd : ∀ token ∈ first, token.kind ≠ .eof)
    (clean : (parse first).2 = [])
    (complete : (∀ token ∈ first.getLast?, token.kind = .symbol .semicolon) ∨
      ∀ token ∈ second.head?, token.kind ≠ .symbol .semicolon ∧ token.kind ≠ .symbol .leftParen ∧
        token.kind ≠ .keyword .elseWord ∧ BinaryOp.ofKind? token.kind = none) :
    parse (first ++ second) = ((parse first).1 ++ (parse second).1, (parse second).2) := by
  have outcomes := outcomesOf_append noEnd clean (complete.imp_right fun apart token isFirst =>
    have ⟨semicolon, call, otherwise, operator⟩ := apart token isFirst
    ⟨otherwise, operator, call, semicolon⟩)
  change Outcome.errors (outcomesOf first) = [] at clean
  rw [parse, outcomes, Outcome.program_append, Outcome.errors_append, clean, List.nil_append]
  rfl

/-- Behind `if (c) { }` the token `else` would go on with the choice, `let` does not: `let else` fails
twice, as it does alone. -/
theorem parse_append_of_choice :
    parse ([⟨.keyword .ifWord, "if", ⟨0, 2⟩⟩, ⟨.symbol .leftParen, "(", ⟨3, 4⟩⟩,
        ⟨.ident, "c", ⟨4, 5⟩⟩, ⟨.symbol .rightParen, ")", ⟨5, 6⟩⟩,
        ⟨.symbol .leftBrace, "\x7b", ⟨7, 8⟩⟩, ⟨.symbol .rightBrace, "\x7d", ⟨9, 10⟩⟩] ++
      [⟨.keyword .letWord, "let", ⟨11, 14⟩⟩, ⟨.keyword .elseWord, "else", ⟨15, 19⟩⟩]) =
      ([.expr (.ifThen (.ident "c") [])],
        [.expected .ident (.keyword .elseWord) ⟨15, 19⟩,
          .noExpression (.keyword .elseWord) ⟨15, 19⟩]) :=
  (parse_append (by decide) (by rfl) (.inr (by decide))).trans (by rfl)

end Monkey
