import Mathlib.Data.List.Forall2
import Monkey.Proofs.Printing.Tokens
import Monkey.Proofs.Token.Tiling

/-!
# Layout does not matter

Tokens that are the same but for their places are read as the same program, and they fail in the
same way: only the places in the errors are different. So the spacing between the lexemes of a
source text can be chosen freely. Two texts have the same tokens, places apart, just if they are the
same lexemes with other spacing around them.
-/

namespace Monkey

/-- Two lists agree place by place just if what counts of their members is the same list. -/
theorem forall₂_iff_map_eq {α β : Type} {relation : α → α → Prop} {f : α → β}
    (same : ∀ first second, relation first second ↔ f first = f second) {firsts seconds : List α} :
    List.Forall₂ relation firsts seconds ↔ firsts.map f = seconds.map f := by
  rw [← List.forall₂_eq_eq_eq, List.forall₂_map_left_iff, List.forall₂_map_right_iff]
  exact ⟨.imp fun first second => (same first second).mp,
    .imp fun first second => (same first second).mpr⟩

/-- The two tokens are the same but for their places. -/
structure Token.SameWord (token other : Token) : Prop where
  kind : token.kind = other.kind
  literal : token.literal = other.literal

/-- The two errors say the same, each of a place of its own. -/
inductive ParseError.SameComplaint : ParseError → ParseError → Prop where
  | expected (wanted got : Kind) (span other : Span) :
      SameComplaint (.expected wanted got span) (.expected wanted got other)
  | noExpression (got : Kind) (span other : Span) :
      SameComplaint (.noExpression got span) (.noExpression got other)
  | badInteger (literal : String) (span other : Span) :
      SameComplaint (.badInteger literal span) (.badInteger literal other)

theorem Token.sameWord_iff (token other : Token) :
    token.SameWord other ↔ token.unplaced = other.unplaced := by
  rcases token with ⟨kind, literal, span⟩
  rcases other with ⟨otherKind, otherLiteral, otherSpan⟩
  simp only [unplaced, mk.injEq, and_true]
  exact ⟨fun same => ⟨same.kind, same.literal⟩, fun same => ⟨same.1, same.2⟩⟩

theorem Token.forall₂_sameWord_iff {tokens others : List Token} :
    List.Forall₂ SameWord tokens others ↔ tokens.map unplaced = others.map unplaced :=
  forall₂_iff_map_eq sameWord_iff

namespace ParseError

theorem sameComplaint_iff (error other : ParseError) :
    error.SameComplaint other ↔ error.unplaced = other.unplaced := by
  constructor
  · intro same
    cases same <;> rfl
  · intro same
    cases error <;> cases other <;> cases same
    · exact .expected _ _ _ _
    · exact .noExpression _ _ _
    · exact .badInteger _ _ _

theorem forall₂_sameComplaint_iff {errors others : List ParseError} :
    List.Forall₂ SameComplaint errors others ↔ errors.map unplaced = others.map unplaced :=
  forall₂_iff_map_eq sameComplaint_iff

theorem SameComplaint.message_eq {error other : ParseError} (same : error.SameComplaint other) :
    error.message = other.message := by
  cases same <;> rfl

end ParseError

/-- Tokens that are the same but for their places are read alike. -/
theorem parse_alike {tokens others : List Token}
    (same : List.Forall₂ Token.SameWord tokens others) :
    (parse tokens).1 = (parse others).1 ∧
      List.Forall₂ ParseError.SameComplaint (parse tokens).2 (parse others).2 := by
  have unplaced := Token.forall₂_sameWord_iff.mp same
  rcases parse_unplaced tokens with ⟨program, errors⟩
  rcases parse_unplaced others with ⟨otherProgram, otherErrors⟩
  rw [← unplaced] at otherProgram otherErrors
  exact ⟨program.symm.trans otherProgram,
    ParseError.forall₂_sameComplaint_iff.mpr (errors.symm.trans otherErrors)⟩

/-! ### Texts with the same lexemes -/

/-- The text is made of these lexemes, with spacing in front of each and behind the last. -/
inductive Laid : List Lexeme → List Char → Prop where
  | spacing {blank : List Char} (spacing : Spacing blank) : Laid [] blank
  | lexeme {blank text rest : List Char} {char : Char} {lexeme : Lexeme} {lexemes : List Lexeme}
      (spacing : Spacing blank) (solid : isSpacing char = false)
      (isCut : Lexeme.cut char text = (lexeme, rest)) (others : Laid lexemes rest) :
      Laid (lexeme :: lexemes) (blank ++ char :: text)

/-- The two sources have the same lexemes, and differ in the spacing around them at most. -/
def Respaced (source other : String) : Prop :=
  ∃ lexemes, Laid lexemes source.toList ∧ Laid lexemes other.toList

/-- The token of a lexeme, without a place. -/
def Lexeme.token (lexeme : Lexeme) : Token := ⟨lexeme.kind, String.ofList lexeme.literal, .origin⟩

theorem CutAs.spaced {blank rest : List Char} {tokens : List Token} (spacing : Spacing blank)
    (cutAs : CutAs rest tokens) : CutAs (blank ++ rest) tokens := by
  induction blank with
  | nil => exact cutAs
  | cons char blank ih =>
      rcases List.forall_mem_cons.mp spacing with ⟨first, others⟩
      exact (ih others).blank first

theorem Laid.cutAs {lexemes : List Lexeme} {text : List Char} (laid : Laid lexemes text) :
    CutAs text (lexemes.map Lexeme.token) := by
  induction laid with
  | @spacing blank spacing =>
      have cutAs := CutAs.nil.spaced spacing
      rwa [List.append_nil] at cutAs
  | lexeme spacing solid isCut _ ih => exact .spaced spacing (.lexeme solid isCut ih)

/-- The lexeme that a token shows. -/
def Token.lexeme (token : Token) : Lexeme := ⟨token.kind, token.literal.toList, token.text.toList⟩

/-- The lexemes of a text are known from their tokens. -/
theorem Laid.map_lexeme_map_token {lexemes : List Lexeme} {text : List Char}
    (laid : Laid lexemes text) : (lexemes.map Lexeme.token).map Token.lexeme = lexemes := by
  induction laid with
  | spacing => rfl
  | @lexeme blank text rest char lexeme lexemes _ _ isCut _ ih =>
      have isText : lexeme.token.text = String.ofList lexeme.source := by
        have shown := Lexeme.text_cut 0 char text
        rwa [isCut] at shown
      rw [List.map_cons, List.map_cons, ih, Token.lexeme, isText]
      simp [Lexeme.token]

theorem Segmented.exists_laid {position : Nat} {text : List Char} {tokens : List Token}
    (segmented : Segmented position text tokens) : ∃ lexemes, Laid lexemes text := by
  induction segmented with
  | spacing spacing => exact ⟨[], .spacing spacing⟩
  | lexeme spacing solid _ ih =>
      rcases ih with ⟨lexemes, laid⟩
      exact ⟨_, .lexeme spacing solid rfl laid⟩

/-- Two sources differ in spacing only if their tokens differ in their places only, and the other
way round. -/
theorem respaced_iff {source other : String} :
    Respaced source other ↔ List.Forall₂ Token.SameWord (tokenize source) (tokenize other) := by
  rw [Token.forall₂_sameWord_iff]
  constructor
  · rintro ⟨lexemes, laid, otherLaid⟩
    exact (laid.cutAs 0).trans (otherLaid.cutAs 0).symm
  · intro same
    rcases (segmented_tokenize source).exists_laid with ⟨lexemes, laid⟩
    rcases (segmented_tokenize other).exists_laid with ⟨others, otherLaid⟩
    have tokens := (laid.cutAs 0).symm.trans (same.trans (otherLaid.cutAs 0))
    have sameLexemes : lexemes = others := by
      rw [← laid.map_lexeme_map_token, List.append_cancel_right tokens,
        otherLaid.map_lexeme_map_token]
    exact ⟨others, sameLexemes ▸ laid, otherLaid⟩

/-- Where tokens stand does not matter: they are read as the same program, and with the same errors
but for the places of these. Nor does it matter how the lexemes of a source are spaced, for the
program and for what the errors say. -/
theorem parse_places :
    (∀ tokens others, List.Forall₂ Token.SameWord tokens others →
      (parse tokens).1 = (parse others).1 ∧
        List.Forall₂ ParseError.SameComplaint (parse tokens).2 (parse others).2) ∧
    ∀ source other, Respaced source other →
      (parseText source).1 = (parseText other).1 ∧
        (parseText source).2.map ParseError.message =
          (parseText other).2.map ParseError.message := by
  refine ⟨fun _ _ => parse_alike, fun source other respaced => ?_⟩
  rcases parse_alike (respaced_iff.mp respaced) with ⟨program, errors⟩
  refine ⟨program, ?_⟩
  rw [← List.forall₂_eq_eq_eq, List.forall₂_map_left_iff, List.forall₂_map_right_iff]
  exact errors.imp fun _ _ => ParseError.SameComplaint.message_eq

/-- An end of the source in the middle fails at whatever place it has; a binding without a sign
fails on one line as on two. -/
theorem parse_places_of_failing :
    List.Forall₂ ParseError.SameComplaint
        (parse [⟨.int, "1", ⟨0, 1⟩⟩, ⟨.symbol .plus, "+", ⟨1, 2⟩⟩, .eof 2, ⟨.int, "x", ⟨2, 3⟩⟩]).2
        (parse [⟨.int, "1", ⟨7, 7⟩⟩, ⟨.symbol .plus, "+", ⟨5, 3⟩⟩, .eof 0, ⟨.int, "x", ⟨1, 9⟩⟩]).2 ∧
      Respaced "let x 5" "\tlet x\r\n5 " ∧
      (parseText "let x 5").2.map ParseError.message =
        (parseText "\tlet x\r\n5 ").2.map ParseError.message := by
  have words : List.Forall₂ Token.SameWord
      [⟨.int, "1", ⟨0, 1⟩⟩, ⟨.symbol .plus, "+", ⟨1, 2⟩⟩, .eof 2, ⟨.int, "x", ⟨2, 3⟩⟩]
      [⟨.int, "1", ⟨7, 7⟩⟩, ⟨.symbol .plus, "+", ⟨5, 3⟩⟩, .eof 0, ⟨.int, "x", ⟨1, 9⟩⟩] :=
    Token.forall₂_sameWord_iff.mpr (by decide)
  have respaced : Respaced "let x 5" "\tlet x\r\n5 " :=
    respaced_iff.mpr (Token.forall₂_sameWord_iff.mpr (by decide +kernel))
  exact ⟨(parse_places.1 _ _ words).2, respaced, (parse_places.2 _ _ respaced).2⟩

end Monkey
