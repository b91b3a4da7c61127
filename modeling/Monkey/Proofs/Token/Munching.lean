import Mathlib.Data.List.TakeWhile
import Monkey.Proofs.Printing.Tokens
import Monkey.Proofs.Token.Tiling

/-!
# Longest matches

The tokens of a source text are well formed, each for its kind, and no token goes on behind its end.
Nothing more is needed to know them: whatever tiles the source with tokens of that sort, with spacing
between them only, tiles it with the tokens of the source. So at no position is there a choice, neither
of the kind of the next token nor of its length.
-/

namespace Monkey

/-! ### Tokens that cannot be longer -/

/-- The character belongs to no token that the language knows. -/
structure IsStray (char : Char) : Prop where
  noSpacing : isSpacing char = false
  noDigit : char.isDigit = false
  noName : isNameChar char = false
  noQuote : char ≠ '"'
  noSymbol : ∀ symbol : Symbol, symbol.text.toList ≠ [char]

/-- The token says what tokens of its kind can say, where `after` is the text behind it. A piece of
text that is no token is a single character, or a quote that is never closed and all that follows it. -/
def Token.WellFormed (token : Token) (after : List Char) : Prop :=
  match token.kind with
  | .illegal =>
    (∃ char, IsStray char ∧ token.literal.toList = [char]) ∨
      ∃ content, '"' ∉ content ∧ token.literal.toList = '"' :: content ∧ after = []
  | .eof => False
  | .ident => IsName token.literal
  | .int => token.literal ≠ "" ∧ ∀ char ∈ token.literal.toList, char.isDigit = true
  | .str => '"' ∉ token.literal.toList
  | .symbol symbol => token.literal = symbol.text
  | .keyword word => token.literal = word.text

/-- The token does not go on with the text behind it. -/
def Token.Maximal (token : Token) (after : List Char) : Prop :=
  match token.kind with
  | .ident | .keyword _ => ∀ char ∈ after.head?, isNameChar char = false
  | .int => ∀ char ∈ after.head?, char.isDigit = false
  | .symbol .assign | .symbol .bang => after.head? ≠ some '='
  | _ => True

theorem Symbol.ofChar?_eq_some_iff {char : Char} {symbol : Symbol} :
    ofChar? char = some symbol ↔ symbol.text.toList = [char] := by
  constructor
  · intro isSymbol
    unfold ofChar? at isSymbol
    split at isSymbol <;> cases isSymbol <;> rfl
  · intro spelled
    cases symbol <;> cases spelled <;> rfl

theorem Symbol.ofChar?_eq_none_iff {char : Char} :
    ofChar? char = none ↔ ∀ symbol : Symbol, symbol.text.toList ≠ [char] := by
  rw [Option.eq_none_iff_forall_ne_some]
  exact forall_congr' fun symbol => not_congr ofChar?_eq_some_iff

theorem Keyword.text_of_wordKind {word : List Char} {keyword : Keyword}
    (isKeyword : Lexeme.wordKind word = .keyword keyword) : String.ofList word = keyword.text := by
  unfold Lexeme.wordKind at isKeyword
  split at isKeyword
  · rename_i found isFound
    cases isKeyword
    have same := List.find?_some isFound
    exact (of_decide_eq_true same).symm
  · cases isKeyword

/-- What is left where characters of some sort have been taken starts with none of them. -/
theorem head?_dropWhile_eq_false (p : Char → Bool) (text : List Char) :
    ∀ char ∈ (text.dropWhile p).head?, p char = false := by
  intro char isFirst
  have notSkipped := List.head?_dropWhile_not p text
  rw [Option.mem_def.mp isFirst] at notSkipped
  exact notSkipped

namespace Lexeme

/-! ### What is cut off -/

theorem wellFormed_cutString (position : Nat) (text : List Char) :
    (Token.ofLexeme position (cutString text).1).WellFormed (cutString text).2 := by
  have noQuote : '"' ∉ text.takeWhile (· ≠ '"') := by
    intro member
    have outside := List.mem_takeWhile_imp member
    simp at outside
  rw [cutString]
  split
  · exact .inr ⟨_, noQuote, by simp [Token.ofLexeme, plain], rfl⟩
  · simpa [Token.WellFormed, Token.ofLexeme] using noQuote

theorem maximal_cutString (position : Nat) (text : List Char) :
    (Token.ofLexeme position (cutString text).1).Maximal (cutString text).2 := by
  rw [cutString]
  split <;> trivial

/-- A symbol is cut off, the longer one of two that start alike. -/
theorem munched_cut_symbol (position : Nat) {char : Char} {symbol : Symbol}
    (isSymbol : Symbol.ofChar? char = some symbol) (text : List Char) :
    (Token.ofLexeme position (cut char text).1).WellFormed (cut char text).2 ∧
      (Token.ofLexeme position (cut char text).1).Maximal (cut char text).2 := by
  have spelled := Symbol.ofChar?_eq_some_iff.mp isSymbol
  by_cases alone : symbol.withEquals? = none ∨ text.head? ≠ some '='
  · rcases cut_symbol symbol alone with ⟨first, later, whole, -, isCut⟩
    rw [spelled, List.singleton_append] at whole
    cases whole
    rw [isCut]
    refine ⟨by simp [Token.WellFormed, Token.ofLexeme, plain], ?_⟩
    cases symbol with
    | assign | bang => exact alone.resolve_left (Option.some_ne_none _)
    | _ => trivial
  · rw [not_or, not_not] at alone
    rcases List.head?_eq_some_iff.mp alone.2 with ⟨rest, rfl⟩
    cases symbol with
    | assign | bang =>
        cases spelled
        exact ⟨rfl, trivial⟩
    | _ => exact absurd rfl alone.1

theorem wordKind_cases (word : List Char) :
    wordKind word = .ident ∨ ∃ keyword, wordKind word = .keyword keyword := by
  rw [wordKind]
  split
  · exact .inr ⟨_, rfl⟩
  · exact .inl rfl

theorem munched_word (position : Nat) {first : Char} {more after : List Char}
    (allName : ∀ char ∈ first :: more, isNameChar char = true)
    (stops : ∀ char ∈ after.head?, isNameChar char = false) :
    (Token.ofLexeme position (plain (wordKind (first :: more)) (first :: more))).WellFormed after ∧
      (Token.ofLexeme position (plain (wordKind (first :: more)) (first :: more))).Maximal after := by
  rcases wordKind_cases (first :: more) with isIdent | ⟨keyword, isKeyword⟩
  · rw [isIdent]
    exact ⟨isName_of_wordKind allName isIdent, stops⟩
  · rw [isKeyword]
    exact ⟨Keyword.text_of_wordKind isKeyword, stops⟩

/-- What is cut off is well formed for its kind, and does not go on. -/
theorem munched_cut (position : Nat) {char : Char} (solid : isSpacing char = false)
    (text : List Char) :
    (Token.ofLexeme position (cut char text).1).WellFormed (cut char text).2 ∧
      (Token.ofLexeme position (cut char text).1).Maximal (cut char text).2 := by
  cases isSymbol : Symbol.ofChar? char with
  | some symbol => exact munched_cut_symbol position isSymbol text
  | none =>
      simp only [cut, isSymbol]
      split
      · exact ⟨wellFormed_cutString position text, maximal_cutString position text⟩
      rename_i noQuote
      split
      · rename_i digit
        refine ⟨⟨?_, ?_⟩, head?_dropWhile_eq_false Char.isDigit text⟩
        · simp [Token.ofLexeme, plain]
        · simpa [Token.ofLexeme, plain] using ⟨digit, fun _ => List.mem_takeWhile_imp⟩
      rename_i noDigit
      split
      · rename_i inName
        exact munched_word position
          (List.forall_mem_cons.mpr ⟨inName, fun _ => List.mem_takeWhile_imp⟩)
          (head?_dropWhile_eq_false isNameChar text)
      rename_i noName
      have stray : IsStray char := ⟨solid, by simpa using noDigit, by simpa using noName, noQuote,
        Symbol.ofChar?_eq_none_iff.mp isSymbol⟩
      exact ⟨.inl ⟨char, stray, by simp [Token.ofLexeme, plain]⟩, trivial⟩

/-! ### What is cut off, from what it says -/

theorem cut_stray {char : Char} (stray : IsStray char) (text : List Char) :
    cut char text = (plain .illegal [char], text) := by
  have noSymbol := Symbol.ofChar?_eq_none_iff.mpr stray.noSymbol
  simp [cut, noSymbol, stray.noQuote, stray.noDigit, stray.noName]

theorem cut_unclosed {content : List Char} (noQuote : '"' ∉ content) :
    cut '"' content = (plain .illegal ('"' :: content), []) := by
  have atEnd : ∀ char ∈ ([] : List Char).head?, decide (char ≠ '"') = false := nofun
  have parts := takeWhile_append_of_stops (all_ne_of_not_mem noQuote) atEnd
  rw [List.append_nil] at parts
  have noSymbol : Symbol.ofChar? '"' = none := rfl
  simp only [cut, noSymbol, if_true, cutString, parts]

theorem cut_of_word {word after : List Char} (nonempty : word ≠ [])
    (allName : ∀ char ∈ word, isNameChar char = true)
    (stops : ∀ char ∈ after.head?, isNameChar char = false) :
    ∃ char text, word ++ after = char :: text ∧ isSpacing char = false ∧
      cut char text = (plain (wordKind word) word, after) := by
  rcases List.exists_cons_of_ne_nil nonempty with ⟨first, more, rfl⟩
  exact ⟨first, more ++ after, rfl, (solid_of_isNameChar (allName first List.mem_cons_self)).1,
    cut_word allName stops⟩

/-- What a token can say is cut off as that token where it does not go on. -/
theorem cut_of_munched {token : Token} {after : List Char} (wellFormed : token.WellFormed after)
    (maximal : token.Maximal after) :
    ∃ char text, token.text.toList ++ after = char :: text ∧ isSpacing char = false ∧
      cut char text = (⟨token.kind, token.literal.toList, token.text.toList⟩, after) := by
  rcases token with ⟨kind, literal, span⟩
  cases kind with
  | illegal =>
      rcases wellFormed with ⟨char, stray, only⟩ | ⟨content, noQuote, only, rfl⟩
      · exact ⟨char, after, by simp_all [Token.text], stray.noSpacing,
          by simp_all [Token.text, cut_stray stray, plain]⟩
      · exact ⟨'"', content, by simp_all [Token.text], rfl,
          by simp_all [Token.text, cut_unclosed noQuote, plain]⟩
  | eof => exact wellFormed.elim
  | ident =>
      have isName : IsName literal := wellFormed
      have isCut := cut_of_word (by simpa using isName.nonempty) isName.chars maximal
      rwa [isName.wordKind] at isCut
  | keyword keyword =>
      cases (show literal = keyword.text from wellFormed)
      have allName : ∀ char ∈ keyword.text.toList, isNameChar char = true := by
        cases keyword <;> exact List.all_eq_true.mp (by decide)
      have isKeyword : wordKind keyword.text.toList = .keyword keyword := by cases keyword <;> rfl
      have isCut := cut_of_word (by cases keyword <;> decide) allName maximal
      rwa [isKeyword] at isCut
  | int =>
      rcases wellFormed with ⟨nonempty, digits⟩
      rcases chars : literal.toList with _ | ⟨first, more⟩
      · exact absurd (String.toList_eq_nil_iff.mp chars) nonempty
      · rw [chars] at digits
        refine ⟨first, more ++ after, by simp [Token.text, chars],
          (solid_of_isDigit (digits first List.mem_cons_self)).1, ?_⟩
        rw [cut_digits digits maximal]
        simp [plain, Token.text, chars]
  | str =>
      exact ⟨'"', literal.toList ++ '"' :: after, by simp [Token.text], rfl, by
        simp [Token.text, cut_quoted wellFormed after]⟩
  | symbol symbol =>
      cases (show literal = symbol.text from wellFormed)
      have alone : symbol.withEquals? = none ∨ after.head? ≠ some '=' := by
        cases symbol with
        | assign | bang => exact .inr maximal
        | _ => exact .inl rfl
      exact cut_symbol symbol alone

end Lexeme

/-! ### The only segmentation -/

/-- The token stands at its span in the source, says what tokens of its kind can say, and does not
go on there. -/
def Token.MunchedIn (source : String) (token : Token) : Prop :=
  ∃ before after : String, source = before ++ token.text ++ after ∧
    token.span = ⟨before.utf8ByteSize, (before ++ token.text).utf8ByteSize⟩ ∧
    token.WellFormed after.toList ∧ token.Maximal after.toList

/-- The tokens tile the source with longest matches. -/
structure Munched (source : String) (tokens : List Token) : Prop where
  token : ∀ token ∈ tokens, token.MunchedIn source
  gaps : ∀ gap ∈ gaps 0 source.utf8ByteSize tokens,
    ∃ blank : String, gap.Cuts source blank ∧ Spacing blank.toList

theorem Segmented.munched {position : Nat} {text : List Char} {tokens : List Token}
    (segmented : Segmented position text tokens) :
    ∀ before : List Char, position = byteWidth before →
      ∀ token ∈ tokens, token.kind ≠ .eof →
        token.MunchedIn (String.ofList (before ++ text)) := by
  -- What stands before the text is carried along, as for the spans.
  induction segmented with
  | spacing =>
      intro before _ token member noEnd
      cases List.mem_singleton.mp member
      exact absurd rfl noEnd
  | @lexeme position blank text char tokens spacing solid _ ih =>
      rintro before rfl
      have whole := Lexeme.append_cut before blank char text
      have later := ih (before ++ blank ++ (Lexeme.cut char text).1.source)
        (by simp [Nat.add_assoc])
      rw [← whole] at later
      refine List.forall_mem_cons.mpr ⟨fun _ => ?_, later⟩
      have munched := Lexeme.munched_cut (byteWidth before + byteWidth blank) solid text
      refine ⟨String.ofList (before ++ blank), String.ofList (Lexeme.cut char text).2, ?_, ?_, ?_, ?_⟩
      · rw [whole, Lexeme.text_cut, String.ofList_append, String.ofList_append]
      · rw [Lexeme.text_cut, ← String.ofList_append]
        simp [Token.ofLexeme, Span.covering, utf8ByteSize_ofList, Nat.add_assoc]
      · simpa using munched.1
      · simpa using munched.2

/-- A text has only one beginning of each width. -/
theorem append_inj_of_byteWidth {front back start rest : List Char}
    (same : front ++ back = start ++ rest) (width : byteWidth front = byteWidth start) :
    front = start ∧ back = rest := by
  have noWidth : ∀ more : List Char, byteWidth more = 0 → more = [] := fun more none =>
    by_contra fun some => absurd none (byteWidth_pos some).ne'
  rcases List.append_eq_append_iff.mp same with ⟨more, rfl, rfl⟩ | ⟨more, rfl, rfl⟩
  · cases noWidth more (by simpa using width)
    simp
  · cases noWidth more (by simpa using width)
    simp

theorem eq_append_of_byteWidth {before text : List Char} {front piece back : String}
    (whole : String.ofList (before ++ text) = front ++ piece ++ back)
    (width : byteWidth before = front.utf8ByteSize) :
    before = front.toList ∧ text = piece.toList ++ back.toList := by
  have same := congrArg String.toList whole
  simp only [String.toList_ofList, String.toList_append, List.append_assoc] at same
  exact append_inj_of_byteWidth same (by rw [width, byteWidth_toList])

/-- Longest matches with spacing between them are the lexemes of a text. -/
theorem segmented_of_munched {before text : List Char} {pieces : List Token}
    (munched : ∀ token ∈ pieces, token.MunchedIn (String.ofList (before ++ text)))
    (spaced : ∀ gap ∈ gaps (byteWidth before) (byteWidth (before ++ text)) pieces,
      ∃ blank : String, gap.Cuts (String.ofList (before ++ text)) blank ∧ Spacing blank.toList) :
    Segmented (byteWidth before) text (pieces ++ [.eof (byteWidth (before ++ text))]) := by
  induction pieces generalizing before text with
  | nil =>
      rcases spaced _ List.mem_cons_self with ⟨blank, ⟨front, back, whole, start, stop⟩, spacing⟩
      rcases eq_append_of_byteWidth whole start with ⟨rfl, rfl⟩
      simp only [byteWidth_append, byteWidth_toList, String.utf8ByteSize_append] at stop
      have noMore : back = "" := String.utf8ByteSize_eq_zero_iff.mp (by omega)
      simpa [noMore] using Segmented.spacing spacing
  | cons token rest ih =>
      rcases spaced _ List.mem_cons_self with ⟨blank, ⟨front, back, whole, start, stop⟩, spacing⟩
      rcases eq_append_of_byteWidth whole start with ⟨rfl, rfl⟩
      rcases munched token List.mem_cons_self with
        ⟨left, after, sameWhole, span, wellFormed, maximal⟩
      rcases Lexeme.cut_of_munched wellFormed maximal with ⟨char, cutText, isText, solid, isCut⟩
      -- The token starts where the spacing ends: there is one place in the source for both.
      have startsBehind : byteWidth (front.toList ++ blank.toList) = left.utf8ByteSize := by
        rw [← String.toList_append, byteWidth_toList, ← stop, span]
      rw [← List.append_assoc] at sameWhole
      rcases eq_append_of_byteWidth sameWhole startsBehind with ⟨sameStart, isBack⟩
      have isToken : Token.ofLexeme (byteWidth front.toList + byteWidth blank.toList)
          (Lexeme.cut char cutText).1 = token := by
        rw [isCut, Token.ofLexeme, ← byteWidth_append, startsBehind, Span.covering,
          byteWidth_toList, ← String.utf8ByteSize_append, ← span, String.ofList_toList]
      have parts : front.toList ++ (blank.toList ++ back.toList) =
          front.toList ++ blank.toList ++ token.text.toList ++ after.toList := by
        rw [isBack]
        simp
      have stops : token.span.stop = byteWidth (front.toList ++ blank.toList ++ token.text.toList) := by
        rw [span, sameStart, ← String.toList_append, byteWidth_toList]
      have segmented := @ih (front.toList ++ blank.toList ++ token.text.toList) after.toList
        (by rw [← parts]; exact fun other member => munched other (List.mem_cons_of_mem _ member))
        (by rw [← parts, ← stops]; exact fun gap member => spaced gap (List.mem_cons_of_mem _ member))
      rw [← parts] at segmented
      have lexeme := @Segmented.lexeme (byteWidth front.toList) blank.toList cutText char
        (rest ++ [.eof (byteWidth (front.toList ++ (blank.toList ++ back.toList)))])
        spacing solid (by simpa [isCut, Nat.add_assoc] using segmented)
      rwa [isToken, ← isText, ← isBack] at lexeme

/-- The tokens of a source text are the longest matches that tile it, and nothing else is. -/
theorem eq_tokenize_iff_munched (source : String) (tokens : List Token) :
    tokens = tokenize source ↔
      ∃ pieces, tokens = pieces ++ [⟨.eof, "", ⟨source.utf8ByteSize, source.utf8ByteSize⟩⟩] ∧
        Munched source pieces := by
  constructor
  · rintro rfl
    rcases (segmented_tokenize source).tiles [] rfl with ⟨pieces, tokens, tiles⟩
    have munched := (segmented_tokenize source).munched [] rfl
    simp only [List.nil_append, String.ofList_toList, byteWidth_toList] at tokens munched tiles
    rw [tokens] at munched ⊢
    refine ⟨pieces, rfl, fun token member => ?_, tiles.gaps⟩
    exact munched token (List.mem_append_left _ member) (tiles.kind token member)
  · rintro ⟨pieces, rfl, munched⟩
    have segmented := @segmented_of_munched [] source.toList pieces
      (by simpa using munched.token) (by simpa [byteWidth_toList] using munched.gaps)
    simpa [byteWidth_toList, Token.eof, tokenize, Cursor.ofString] using segmented.eq_tokens

end Monkey
