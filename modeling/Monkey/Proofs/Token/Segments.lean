import Monkey.Token.Stream

/-!
# Segments of a source text

A source text is a sequence of lexemes, with spacing before each of them and behind the last one.
`Segmented` says so of a text and its tokens, without the search for the next lexeme. What holds of
all tokens of a text is proved by induction on it.
-/

namespace Monkey

/-- The text may stand between two tokens. -/
def Spacing (text : List Char) : Prop := ∀ char ∈ text, isSpacing char = true

namespace Spacing

theorem nil : Spacing [] := List.forall_mem_nil _

theorem cons {char : Char} {text : List Char} (first : isSpacing char = true)
    (rest : Spacing text) : Spacing (char :: text) :=
  List.forall_mem_cons.mpr ⟨first, rest⟩

theorem dropWhile_append {blank : List Char} (spacing : Spacing blank) (text : List Char) :
    (blank ++ text).dropWhile isSpacing = text.dropWhile isSpacing :=
  List.dropWhile_append_of_pos spacing

theorem dropWhile {blank : List Char} (spacing : Spacing blank) :
    blank.dropWhile isSpacing = [] := by
  simpa using spacing.dropWhile_append []

theorem or_solid (text : List Char) :
    Spacing text ∨ ∃ blank char rest, text = blank ++ char :: rest ∧ Spacing blank ∧
      isSpacing char = false := by
  induction text with
  | nil => exact .inl nil
  | cons char rest ih =>
      cases first : isSpacing char with
      | false => exact .inr ⟨[], char, rest, rfl, nil, first⟩
      | true =>
          rcases ih with spacing | ⟨blank, solid, later, rfl, spacing, isSolid⟩
          · exact .inl (spacing.cons first)
          · exact .inr ⟨char :: blank, solid, later, rfl, spacing.cons first, isSolid⟩

end Spacing

/-- Which tokens a text has at a position: those of its lexemes, and the end of the source. -/
inductive Segmented : (position : Nat) → List Char → List Token → Prop where
  | spacing {position : Nat} {blank : List Char} (spacing : Spacing blank) :
      Segmented position blank [.eof (position + byteWidth blank)]
  | lexeme {position : Nat} {blank text : List Char} {char : Char} {tokens : List Token}
      (spacing : Spacing blank) (solid : isSpacing char = false)
      (rest : Segmented (position + byteWidth blank + byteWidth (Lexeme.cut char text).1.source)
        (Lexeme.cut char text).2 tokens) :
      Segmented position (blank ++ char :: text)
        (.ofLexeme (position + byteWidth blank) (Lexeme.cut char text).1 :: tokens)

namespace Cursor

theorem next_of_spacing {position : Nat} {blank : List Char} (spacing : Spacing blank) :
    (Cursor.mk position blank).next =
      (.eof (position + byteWidth blank), ⟨position + byteWidth blank, []⟩) := by
  simp [next, spacing.dropWhile, atEnd]

theorem next_of_solid {position : Nat} {blank text : List Char} {char : Char}
    (spacing : Spacing blank) (solid : isSpacing char = false) :
    (Cursor.mk position (blank ++ char :: text)).next =
      (.ofLexeme (position + byteWidth blank) (Lexeme.cut char text).1,
        ⟨position + byteWidth blank + byteWidth (Lexeme.cut char text).1.source,
          (Lexeme.cut char text).2⟩) := by
  have taken : (blank ++ char :: text).takeWhile isSpacing = blank := by
    rw [List.takeWhile_append_of_pos spacing]
    simp [solid]
  have left : (blank ++ char :: text).dropWhile isSpacing = char :: text := by
    rw [spacing.dropWhile_append]
    simp [solid]
  simp [next, taken, left]

theorem tokens_of_spacing {position : Nat} {blank : List Char} (spacing : Spacing blank) :
    (Cursor.mk position blank).tokens = [.eof (position + byteWidth blank)] := by
  rw [tokens, next_of_spacing spacing]
  simp [Token.eof]

theorem tokens_of_solid {position : Nat} {blank text : List Char} {char : Char}
    (spacing : Spacing blank) (solid : isSpacing char = false) :
    (Cursor.mk position (blank ++ char :: text)).tokens =
      .ofLexeme (position + byteWidth blank) (Lexeme.cut char text).1 ::
        (Cursor.mk (position + byteWidth blank + byteWidth (Lexeme.cut char text).1.source)
          (Lexeme.cut char text).2).tokens := by
  rw [tokens, next_of_solid spacing solid]
  simp [Token.ofLexeme, Lexeme.kind_cut_ne_eof]

theorem segmented (cursor : Cursor) : Segmented cursor.position cursor.text cursor.tokens := by
  fun_induction Cursor.tokens cursor with
  | case1 cursor more ih =>
      rcases cursor with ⟨position, text⟩
      rcases Spacing.or_solid text with spacing | ⟨blank, char, rest, rfl, spacing, solid⟩
      · rw [next_of_spacing spacing] at more
        exact absurd rfl more
      · rw [next_of_solid spacing solid] at ih ⊢
        exact .lexeme spacing solid ih
  | case2 cursor last =>
      rcases cursor with ⟨position, text⟩
      rcases Spacing.or_solid text with spacing | ⟨blank, char, rest, rfl, spacing, solid⟩
      · rw [next_of_spacing spacing]
        exact .spacing spacing
      · rw [next_of_solid spacing solid] at last
        exact absurd (Lexeme.kind_cut_ne_eof char rest) last

end Cursor

theorem segmented_tokenize (source : String) : Segmented 0 source.toList (tokenize source) :=
  (Cursor.ofString source).segmented

/-- The last token of a text, and no other, is the end of the source. -/
theorem Segmented.ends {position : Nat} {text : List Char} {tokens : List Token}
    (segmented : Segmented position text tokens) :
    ∃ front finish, tokens = front ++ [.eof finish] ∧ ∀ token ∈ front, token.kind ≠ .eof := by
  induction segmented with
  | spacing => exact ⟨[], _, rfl, nofun⟩
  | @lexeme position blank text char tokens _ _ _ ih =>
      rcases ih with ⟨front, finish, rfl, noEnd⟩
      refine ⟨_ :: front, finish, rfl, ?_⟩
      exact List.forall_mem_cons.mpr ⟨Lexeme.kind_cut_ne_eof char text, noEnd⟩

theorem Segmented.ne_nil {position : Nat} {text : List Char} {tokens : List Token}
    (segmented : Segmented position text tokens) : tokens ≠ [] := by
  rcases segmented.ends with ⟨front, finish, rfl, _⟩
  simp

theorem Segmented.spacing_of_end {position finish : Nat} {text : List Char}
    (segmented : Segmented position text [.eof finish]) : Spacing text := by
  generalize only : [Token.eof finish] = tokens at segmented
  cases segmented with
  | spacing spacing => exact spacing
  | lexeme _ _ rest =>
      rw [List.cons.injEq] at only
      exact absurd only.2.symm rest.ne_nil

/-- A text has its segments in one way only. -/
theorem Segmented.eq_tokens {position : Nat} {text : List Char} {tokens : List Token}
    (segmented : Segmented position text tokens) : tokens = (Cursor.mk position text).tokens := by
  induction segmented with
  | spacing spacing => exact (Cursor.tokens_of_spacing spacing).symm
  | lexeme spacing solid _ ih => rw [Cursor.tokens_of_solid spacing solid, ih]

end Monkey
