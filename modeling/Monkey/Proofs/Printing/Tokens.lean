import Monkey.Proofs.Reading.Layout
import Monkey.Proofs.Token.Joining

/-!
# The tokens of written texts

What is written as a token is cut off as that token, unless the text behind it goes on with it. So a
text that is put together from such pieces, with nothing between two of them that runs together, has
the tokens that it is put together from.
-/

namespace Monkey

/-! ### First characters -/

theorem isAlpha_of_isDigit {char : Char} (digit : char.isDigit = true) : char.isAlpha = false := by
  have atMost : char.val ≤ '9'.val := of_decide_eq_true (Bool.and_eq_true_iff.mp digit).2
  apply Bool.eq_false_iff.mpr
  intro letter
  rcases Bool.or_eq_true_iff.mp letter with upper | lower
  · have atLeast : 'A'.val ≤ char.val := (of_decide_eq_true upper).1
    exact absurd (UInt32.le_trans atLeast atMost) (by decide)
  · have atLeast : 'a'.val ≤ char.val := of_decide_eq_true (Bool.and_eq_true_iff.mp lower).1
    exact absurd (UInt32.le_trans atLeast atMost) (by decide)

theorem isNameChar_of_isDigit {char : Char} (digit : char.isDigit = true) :
    isNameChar char = false := by
  have ascii : char.toNat < 128 := by
    have range := Char.isDigit_iff_toNat.mp digit
    exact Nat.lt_of_le_of_lt range.2 (by decide)
  have noUnderscore : char ≠ '_' := by
    rintro rfl
    exact absurd digit (by decide)
  simp [isNameChar, isAlphabetic_of_ascii ascii, isAlpha_of_isDigit digit, noUnderscore]

theorem solid_of_isNameChar {char : Char} (inName : isNameChar char = true) :
    isSpacing char = false ∧ Symbol.ofChar? char = none ∧ char ≠ '"' ∧ char.isDigit = false := by
  refine ⟨?_, ?_, ?_, ?_⟩
  · apply Bool.eq_false_iff.mpr
    intro spacing
    rw [(stops_of_isSpacing spacing).2.2] at inName
    cases inName
  · unfold Symbol.ofChar?
    split
    all_goals first | rfl | exact absurd inName (by decide)
  · rintro rfl
    exact absurd inName (by decide)
  · apply Bool.eq_false_iff.mpr
    intro digit
    rw [isNameChar_of_isDigit digit] at inName
    cases inName

theorem solid_of_isDigit {char : Char} (digit : char.isDigit = true) :
    isSpacing char = false ∧ Symbol.ofChar? char = none ∧ char ≠ '"' := by
  refine ⟨?_, ?_, ?_⟩
  · apply Bool.eq_false_iff.mpr
    intro spacing
    rw [(stops_of_isSpacing spacing).2.1] at digit
    cases digit
  · unfold Symbol.ofChar?
    split
    all_goals first | rfl | exact absurd digit (by decide)
  · rintro rfl
    exact absurd digit (by decide)

/-! ### Pieces of a text -/

/-- No word and no numeral goes on with the text. -/
def Stops (text : List Char) : Prop :=
  ∀ char ∈ text.head?, isNameChar char = false ∧ char.isDigit = false

theorem Stops.nil : Stops [] := nofun

theorem Stops.cons {char : Char} (noName : isNameChar char = false) (noDigit : char.isDigit = false)
    (text : List Char) : Stops (char :: text) := by
  intro first isFirst
  cases isFirst
  exact ⟨noName, noDigit⟩

theorem Symbol.stops (symbol : Symbol) (text : List Char) : Stops (symbol.text.toList ++ text) := by
  cases symbol
  all_goals exact .cons (by decide) (by decide) _

theorem takeWhile_append_of_stops {p : Char → Bool} {piece rest : List Char}
    (all : ∀ char ∈ piece, p char = true) (stops : ∀ char ∈ rest.head?, p char = false) :
    (piece ++ rest).takeWhile p = piece ∧ (piece ++ rest).dropWhile p = rest := by
  rw [List.takeWhile_append_of_pos all, List.dropWhile_append_of_pos all]
  cases rest with
  | nil => simp
  | cons char rest => simp [stops char rfl]

theorem all_ne_of_not_mem {quote : Char} {content : List Char} (noQuote : quote ∉ content) :
    ∀ char ∈ content, decide (char ≠ quote) = true := by
  intro char member
  rw [decide_eq_true_eq]
  rintro rfl
  exact noQuote member

namespace Lexeme

theorem cut_word {first : Char} {more rest : List Char}
    (word : ∀ char ∈ first :: more, isNameChar char = true)
    (stops : ∀ char ∈ rest.head?, isNameChar char = false) :
    cut first (more ++ rest) = (plain (wordKind (first :: more)) (first :: more), rest) := by
  rcases solid_of_isNameChar (word first List.mem_cons_self) with ⟨-, noSymbol, noQuote, noDigit⟩
  have parts := takeWhile_append_of_stops
    (fun char member => word char (List.mem_cons_of_mem _ member)) stops
  simp [cut, noSymbol, noQuote, noDigit, word first List.mem_cons_self, parts]

theorem cut_digits {first : Char} {more rest : List Char}
    (digits : ∀ char ∈ first :: more, char.isDigit = true)
    (stops : ∀ char ∈ rest.head?, char.isDigit = false) :
    cut first (more ++ rest) = (plain .int (first :: more), rest) := by
  rcases solid_of_isDigit (digits first List.mem_cons_self) with ⟨-, noSymbol, noQuote⟩
  have parts := takeWhile_append_of_stops
    (fun char member => digits char (List.mem_cons_of_mem _ member)) stops
  simp [cut, noSymbol, noQuote, digits first List.mem_cons_self, parts]

theorem cut_quoted {content : List Char} (noQuote : '"' ∉ content) (rest : List Char) :
    cut '"' (content ++ '"' :: rest) = (⟨.str, content, '"' :: (content ++ ['"'])⟩, rest) := by
  have parts :=
    @takeWhile_append_of_stops _ content ('"' :: rest) (all_ne_of_not_mem noQuote) (by simp)
  have noSymbol : Symbol.ofChar? '"' = none := rfl
  simp only [cut, noSymbol, if_true, cutString, parts]

/-- A symbol is cut off unless an equals sign behind it makes a longer one. -/
theorem cut_symbol (symbol : Symbol) {rest : List Char}
    (alone : symbol.withEquals? = none ∨ rest.head? ≠ some '=') :
    ∃ char text, symbol.text.toList ++ rest = char :: text ∧ isSpacing char = false ∧
      cut char text = (plain (.symbol symbol) symbol.text.toList, rest) := by
  have single : ∀ char, Symbol.ofChar? char = some symbol →
      cut char rest = (plain (.symbol symbol) [char], rest) := by
    intro char isSymbol
    rw [cut, isSymbol]
    rcases alone with never | noEquals
    · simp only [never]
    · rcases rest with _ | ⟨next, rest⟩
      · cases symbol <;> rfl
      · have different : next ≠ '=' := by simpa using noEquals
        cases symbol <;> simp [Symbol.withEquals?, different]
  cases symbol with
  | equal | notEqual => exact ⟨_, _, rfl, by decide, rfl⟩
  | _ => exact ⟨_, _, rfl, by decide, single _ rfl⟩

end Lexeme

/-- Names are runs of name characters that are no keywords. -/
structure IsName (name : String) : Prop where
  nonempty : name ≠ ""
  chars : ∀ char ∈ name.toList, isNameChar char = true
  noKeyword : ∀ keyword : Keyword, keyword.text ≠ name

theorem IsName.wordKind {name : String} (isName : IsName name) :
    Lexeme.wordKind name.toList = .ident := by
  have noKeyword : Keyword.ofText? name = none := by
    apply List.find?_eq_none.mpr
    intro keyword _
    simpa using isName.noKeyword keyword
  rw [Lexeme.wordKind, String.ofList_toList, noKeyword]

theorem isName_of_wordKind {first : Char} {more : List Char}
    (allName : ∀ char ∈ first :: more, isNameChar char = true)
    (isIdent : Lexeme.wordKind (first :: more) = .ident) :
    IsName (String.ofList (first :: more)) := by
  refine ⟨by simp, by simpa using allName, ?_⟩
  intro keyword same
  unfold Lexeme.wordKind at isIdent
  split at isIdent
  · cases isIdent
  · rename_i noKeyword
    have differs := List.find?_eq_none.mp noKeyword keyword (by cases keyword <;> decide)
    simp [same] at differs

/-- Wherever it stands, the text has these tokens, apart from their places. -/
def CutAs (text : List Char) (tokens : List Token) : Prop :=
  ∀ position, (Cursor.mk position text).tokens.map Token.unplaced = tokens ++ [.eof 0]

namespace CutAs

variable {text rest : List Char} {tokens : List Token}

theorem nil : CutAs [] [] := by
  intro position
  rw [Cursor.tokens_of_spacing .nil]
  rfl

theorem blank {char : Char} (isBlank : isSpacing char = true) (cutAs : CutAs rest tokens) :
    CutAs (char :: rest) tokens := by
  intro position
  have spacing : Spacing [char] := Spacing.nil.cons isBlank
  have segmented := (Cursor.mk (position + byteWidth [char]) rest).segmented
  have tokens := (segmented.after_spacing spacing).eq_tokens
  rw [List.singleton_append] at tokens
  rw [← tokens]
  exact cutAs _

theorem space (cutAs : CutAs rest tokens) : CutAs (' ' :: rest) tokens := cutAs.blank rfl

theorem lineFeed (cutAs : CutAs rest tokens) : CutAs ('\n' :: rest) tokens := cutAs.blank rfl

theorem lexeme {char : Char} {lexeme : Lexeme} (solid : isSpacing char = false)
    (isCut : Lexeme.cut char text = (lexeme, rest)) (cutAs : CutAs rest tokens) :
    CutAs (char :: text) (⟨lexeme.kind, String.ofList lexeme.literal, .origin⟩ :: tokens) := by
  intro position
  have cursor := @Cursor.tokens_of_solid position [] text char .nil solid
  rw [List.nil_append, isCut] at cursor
  rw [cursor, List.map_cons, cutAs]
  rfl

theorem symbol (symbol : Symbol)
    (alone : symbol.withEquals? = none ∨ rest.head? ≠ some '=') (cutAs : CutAs rest tokens) :
    CutAs (symbol.text.toList ++ rest) (symbol.token :: tokens) := by
  rcases Lexeme.cut_symbol symbol alone with ⟨char, text, whole, solid, isCut⟩
  have cut := lexeme solid isCut cutAs
  rw [whole]
  simpa [Lexeme.plain, Symbol.token] using cut

theorem word {first : Char} {more : List Char}
    (allName : ∀ char ∈ first :: more, isNameChar char = true) (stops : Stops rest)
    (cutAs : CutAs rest tokens) :
    CutAs (first :: more ++ rest)
      (⟨Lexeme.wordKind (first :: more), String.ofList (first :: more), .origin⟩ :: tokens) :=
  .lexeme (solid_of_isNameChar (allName first List.mem_cons_self)).1
    (Lexeme.cut_word allName fun char isFirst => (stops char isFirst).1) cutAs

theorem keyword (keyword : Keyword) (stops : Stops rest) (cutAs : CutAs rest tokens) :
    CutAs (keyword.text.toList ++ rest) (keyword.token :: tokens) := by
  cases keyword
  all_goals exact word (List.all_eq_true.mp (by decide)) stops cutAs

theorem name {name : String} (isName : IsName name) (stops : Stops rest)
    (cutAs : CutAs rest tokens) :
    CutAs (name.toList ++ rest) (⟨.ident, name, .origin⟩ :: tokens) := by
  rcases chars : name.toList with _ | ⟨first, more⟩
  · exact absurd (String.toList_eq_nil_iff.mp chars) isName.nonempty
  · have whole := word (chars ▸ isName.chars) stops cutAs
    rw [← chars] at whole ⊢
    rwa [isName.wordKind, String.ofList_toList] at whole

theorem numeral {digits : List Char} (nonempty : digits ≠ [])
    (decimal : ∀ digit ∈ digits, digit.isDigit = true) (stops : Stops rest)
    (cutAs : CutAs rest tokens) :
    CutAs (digits ++ rest) (⟨.int, String.ofList digits, .origin⟩ :: tokens) := by
  rcases digits with _ | ⟨first, more⟩
  · exact absurd rfl nonempty
  · exact lexeme (solid_of_isDigit (decimal first List.mem_cons_self)).1
      (Lexeme.cut_digits decimal fun char isFirst => (stops char isFirst).2) cutAs

theorem str {text : String} (noQuote : '"' ∉ text.toList) (cutAs : CutAs rest tokens) :
    CutAs ((quoted text).toList ++ rest) (⟨.str, text, .origin⟩ :: tokens) := by
  have whole := lexeme (by decide) (Lexeme.cut_quoted noQuote rest) cutAs
  simpa using whole

end CutAs

end Monkey
