import Monkey.Proofs.Token.Munching

/-!
# Tokens that stand apart

Spacing keeps tokens apart. No token reaches over it but a string that is not closed, and such a string
is the last token of its text. So a text behind spacing changes no token in front of it, and the tokens
of a text, written one by one with spaces between them, are the tokens of what is written.
-/

namespace Monkey

/-! ### Strings that are not closed -/

/-- A string that is not closed takes all the text behind it. -/
theorem Token.WellFormed.nil_of_unclosed {token : Token} {after : List Char}
    (wellFormed : token.WellFormed after) (unclosed : token.Unclosed) : after = [] := by
  rcases unclosed with ⟨kind, quote⟩
  rw [Token.WellFormed, kind] at wellFormed
  rcases wellFormed with ⟨char, stray, only⟩ | ⟨content, -, -, atEnd⟩
  · rw [only] at quote
    exact absurd (Option.some.inj quote) stray.noQuote
  · exact atEnd

namespace Lexeme

theorem of_unclosed {position : Nat} {char : Char} {text : List Char}
    (solid : isSpacing char = false)
    (unclosed : (Token.ofLexeme position (cut char text).1).Unclosed) :
    char = '"' ∧ (cut char text).2 = [] := by
  have atEnd := (munched_cut position solid text).1.nil_of_unclosed unclosed
  refine ⟨?_, atEnd⟩
  have isText := congrArg String.toList (text_cut position char text)
  have source := source_append_cut char text
  rw [atEnd, List.append_nil] at source
  rw [Token.text, unclosed.1, String.toList_ofList, source] at isText
  have quote := unclosed.2
  rw [isText] at quote
  exact Option.some.inj quote

/-- A lexeme that starts with a quote is a string, closed or not. -/
theorem cut_quote (position : Nat) (text : List Char) :
    (Token.ofLexeme position (cut '"' text).1).kind = .str ∨
      (Token.ofLexeme position (cut '"' text).1).Unclosed := by
  have isCut : cut '"' text = cutString text := rfl
  rw [isCut]
  by_cases closed : text.dropWhile (· ≠ '"') = []
  · exact .inr (unclosed_cutString closed position)
  · rcases List.exists_cons_of_ne_nil closed with ⟨quote, rest, dropped⟩
    exact .inl (by simp only [cutString, dropped, Token.ofLexeme])

end Lexeme

namespace Segmented

variable {position : Nat} {text : List Char} {token : Token} {tokens rest : List Token}

theorem eq_end (segmented : Segmented position [] tokens) : tokens = [.eof position] := by
  rw [segmented.eq_tokens, Cursor.tokens_of_spacing .nil]
  rfl

/-- Only one string of a text is not closed, and only the end comes behind it. -/
theorem exists_unclosed (segmented : Segmented position text tokens) (member : token ∈ tokens)
    (unclosed : token.Unclosed) :
    ∃ front finish, tokens = front ++ [token, .eof finish] ∧
      ∀ other ∈ front, ¬ other.Unclosed := by
  induction segmented with
  | spacing =>
      cases List.mem_singleton.mp member
      cases unclosed.1
  | @lexeme position blank text char tokens _ solid rest ih =>
      by_cases first : (Token.ofLexeme (position + byteWidth blank) (Lexeme.cut char text).1).Unclosed
      · rw [(Lexeme.of_unclosed solid first).2] at rest
        cases rest.eq_end
        rcases List.mem_cons.mp member with rfl | isEnd
        · exact ⟨[], _, rfl, List.forall_mem_nil _⟩
        · cases List.mem_singleton.mp isEnd
          cases unclosed.1
      · rcases List.mem_cons.mp member with rfl | later
        · exact absurd unclosed first
        · rcases ih later with ⟨front, finish, rfl, closed⟩
          exact ⟨_ :: front, finish, rfl, List.forall_mem_cons.mpr ⟨first, closed⟩⟩

/-- The place at which a string is opened. -/
theorem opening (segmented : Segmented position text (token :: rest)) (unclosed : token.Unclosed) :
    ∃ blank content, text = blank ++ '"' :: content ∧ Spacing blank ∧
      token.span.start = position + byteWidth blank := by
  generalize whole : token :: rest = tokens at segmented
  cases segmented with
  | spacing =>
      cases whole
      cases unclosed.1
  | @lexeme _ blank text char _ spacing solid restSegmented =>
      cases whole
      cases (Lexeme.of_unclosed solid unclosed).1
      exact ⟨blank, text, rfl, spacing, rfl⟩

end Segmented

/-- Where a string is opened, there is a token for it, whatever text follows. -/
theorem Cursor.tokens_of_quote {blank : List Char} (spacing : Spacing blank) (position : Nat)
    (text : List Char) :
    ∃ opened later, (Cursor.mk position (blank ++ '"' :: text)).tokens = opened :: later ∧
      opened.span.start = position + byteWidth blank ∧ (opened.kind = .str ∨ opened.Unclosed) :=
  ⟨_, _, tokens_of_solid spacing (by decide), rfl, Lexeme.cut_quote _ text⟩

/-- A text behind a string that is not closed goes on with that string. The tokens in front of it stay. -/
theorem Segmented.append_unclosed {position : Nat} {text : List Char} {token : Token}
    {tokens : List Token} {stop : Char} (segmented : Segmented position text tokens)
    (member : token ∈ tokens) (unclosed : token.Unclosed) (spacing : isSpacing stop = true)
    (more : List Char) :
    ∃ front finish opened later, tokens = front ++ [token, .eof finish] ∧
      (∀ other ∈ front, ¬ other.Unclosed) ∧
      Segmented position (text ++ stop :: more) (front ++ opened :: later) ∧
      opened.span.start = token.span.start ∧ (opened.kind = .str ∨ opened.Unclosed) := by
  rcases segmented.exists_unclosed member unclosed with ⟨front, finish, rfl, closed⟩
  rcases segmented.exists_front (List.cons_ne_nil _ _) closed spacing more with
    ⟨before, rest, -, last, joins⟩
  rcases last.opening unclosed with ⟨blank, content, rfl, blankSpacing, start⟩
  have joined := (Cursor.mk (position + byteWidth before)
    (blank ++ '"' :: (content ++ stop :: more))).segmented
  rcases Cursor.tokens_of_quote blankSpacing (position + byteWidth before)
    (content ++ stop :: more) with ⟨opened, later, opens, openedStart, isString⟩
  rw [opens] at joined
  exact ⟨front, finish, opened, later, rfl, closed, joins _ (by simpa using joined),
    openedStart.trans start.symm, isString⟩

/-- The tokens of two texts with spacing between them are those of the first text, without its end, and
those of the second one, moved by what stands before it. If the first text ends in a string that is not
closed, only the tokens in front of that string are sure to stay. -/
theorem tokenize_separated {first blank : String} (spacing : Spacing blank.toList)
    (nonempty : blank ≠ "") (second : String) :
    ((∀ token ∈ tokenize first, ¬ token.Unclosed) →
        tokenize (first ++ blank ++ second) =
          (tokenize first).dropLast ++
            (tokenize second).map (Token.shift (first ++ blank).utf8ByteSize)) ∧
      ∀ token ∈ tokenize first, token.Unclosed →
        ∃ front finish opened later, tokenize first = front ++ [token, .eof finish] ∧
          (∀ other ∈ front, ¬ other.Unclosed) ∧
          tokenize (first ++ blank ++ second) = front ++ opened :: later ∧
          opened.span.start = token.span.start ∧ (opened.kind = .str ∨ opened.Unclosed) := by
  constructor
  · intro closed
    exact tokenize_append spacing nonempty closed
  · intro token member unclosed
    rcases chars : blank.toList with _ | ⟨stop, more⟩
    · exact absurd (String.toList_eq_nil_iff.mp chars) nonempty
    rw [chars] at spacing
    rcases (segmented_tokenize first).append_unclosed member unclosed
      (spacing stop List.mem_cons_self) (more ++ second.toList) with
      ⟨front, finish, opened, later, tokens, closed, joined, start, isString⟩
    refine ⟨front, finish, opened, later, tokens, closed, ?_, start, isString⟩
    rw [joined.eq_tokens, tokenize, Cursor.ofString]
    simp [chars]

/-- The signs of `é =` and `= 1` do not run together over a tab, and where the first text opens a
string that it does not close, the name in front of the string stays. -/
theorem tokenize_separated_signs :
    Spacing "\t".toList ∧ "\t" ≠ "" ∧ (∀ token ∈ tokenize "é =", ¬ token.Unclosed) ∧
      tokenize ("é =" ++ "\t" ++ "= 1") =
        [⟨.ident, "é", ⟨0, 2⟩⟩, ⟨.symbol .assign, "=", ⟨3, 4⟩⟩, ⟨.symbol .assign, "=", ⟨5, 6⟩⟩,
          ⟨.int, "1", ⟨7, 8⟩⟩, .eof 8] ∧
      Token.Unclosed ⟨.illegal, "\"=", ⟨3, 5⟩⟩ ∧
      ∃ opened later, tokenize ("é \"=" ++ "\t" ++ "= 1") =
        [⟨.ident, "é", ⟨0, 2⟩⟩] ++ opened :: later ∧ opened.span.start = 3 := by
  have spacing : Spacing "\t".toList := List.forall_mem_singleton.mpr rfl
  have nonempty : "\t" ≠ "" := by decide
  have closed : ∀ token ∈ tokenize "é =", ¬ token.Unclosed := by
    unfold Token.Unclosed
    decide +kernel
  have signs := (tokenize_separated spacing nonempty "= 1").1 closed
  have opens : tokenize "é \"=" =
      [⟨.ident, "é", ⟨0, 2⟩⟩, ⟨.illegal, "\"=", ⟨3, 5⟩⟩, .eof 5] := by decide +kernel
  have unclosed : Token.Unclosed ⟨.illegal, "\"=", ⟨3, 5⟩⟩ := ⟨rfl, by decide⟩
  rcases (tokenize_separated spacing nonempty "= 1").2 _ (by rw [opens]; decide) unclosed with
    ⟨front, finish, opened, later, tokens, -, joined, start, -⟩
  rw [opens] at tokens
  have isFront : [⟨.ident, "é", ⟨0, 2⟩⟩] = front := (@List.append_inj' _ [_] _ _ _ tokens rfl).1
  rw [← isFront] at joined
  exact ⟨spacing, nonempty, closed, signs.trans (by decide +kernel), unclosed, opened, later, joined,
    start⟩

/-! ### Tokens with single spaces between them -/

/-- The texts of tokens, with a space between any two of them. -/
def spacedText (tokens : List Token) : String := " ".intercalate (tokens.map Token.text)

namespace Token

variable {token : Token}

theorem WellFormed.of_closed {after : List Char} (wellFormed : token.WellFormed after)
    (closed : ¬ token.Unclosed) (more : List Char) : token.WellFormed more := by
  unfold WellFormed at wellFormed ⊢
  split at wellFormed
  · rename_i kind
    rcases wellFormed with stray | ⟨content, -, literal, -⟩
    · exact .inl stray
    · exact absurd ⟨kind, by rw [literal]; rfl⟩ closed
  all_goals exact wellFormed

theorem WellFormed.at_end {after : List Char} (wellFormed : token.WellFormed after) :
    token.WellFormed [] := by
  by_cases unclosed : token.Unclosed
  · rwa [wellFormed.nil_of_unclosed unclosed] at wellFormed
  · exact wellFormed.of_closed unclosed []

theorem maximal_nil : token.Maximal [] := by
  unfold Maximal
  split <;> simp

theorem maximal_space (more : List Char) : token.Maximal (' ' :: more) := by
  unfold Maximal
  split <;> simp <;> rfl

end Token

theorem CutAs.token {token : Token} {rest : List Char} {tokens : List Token}
    (wellFormed : token.WellFormed rest) (maximal : token.Maximal rest) (cutAs : CutAs rest tokens) :
    CutAs (token.text.toList ++ rest) (token.unplaced :: tokens) := by
  rcases Lexeme.cut_of_munched wellFormed maximal with ⟨char, text, isText, solid, isCut⟩
  have cut := CutAs.lexeme solid isCut cutAs
  rw [String.ofList_toList] at cut
  rw [isText]
  exact cut

theorem Segmented.cutAs_spacedText {position : Nat} {text : List Char} {tokens : List Token}
    (segmented : Segmented position text tokens) :
    CutAs (spacedText tokens.dropLast).toList (tokens.dropLast.map Token.unplaced) := by
  induction segmented with
  | spacing => exact .nil
  | @lexeme position blank text char tokens _ solid rest ih =>
      have wellFormed := (Lexeme.munched_cut (position + byteWidth blank) solid text).1
      rw [List.dropLast_cons_of_ne_nil rest.ne_nil, List.map_cons]
      -- Only where another token follows is there a space, and then no string has been left open.
      cases more : tokens.dropLast with
      | nil =>
          have alone := CutAs.token wellFormed.at_end Token.maximal_nil .nil
          simpa [spacedText] using alone
      | cons next later =>
          have closed : ¬ (Token.ofLexeme (position + byteWidth blank)
              (Lexeme.cut char text).1).Unclosed := by
            intro unclosed
            rw [(Lexeme.of_unclosed solid unclosed).2] at rest
            simp [rest.eq_end] at more
          rw [more] at ih
          have spaced := CutAs.token (wellFormed.of_closed closed _) (Token.maximal_space _) ih.space
          simpa [spacedText] using spaced

/-- The tokens of a source text, written with single spaces between them, are read again as the same
tokens, the end included. -/
theorem tokenize_spacedText (source : String) :
    (tokenize (spacedText (tokenize source).dropLast)).map Token.unplaced =
      (tokenize source).map Token.unplaced := by
  have segmented := segmented_tokenize source
  rcases segmented.ends with ⟨front, finish, tokens, -⟩
  have again := segmented.cutAs_spacedText 0
  rw [tokenize, Cursor.ofString, again, tokens, List.dropLast_concat, List.map_append]
  rfl

/-- Signs that stand side by side keep apart, and what is left of a string stays behind all else. -/
example : spacedText (tokenize "a=!==\"b c\"\" ").dropLast = "a = != = \"b c\" \" " := by
  decide +kernel

end Monkey
