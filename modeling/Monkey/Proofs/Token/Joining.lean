import Monkey.Proofs.Token.Segments

/-!
# Tokens of joined texts

Where spacing stands between two texts, no lexeme reaches from one into the other, unless the first
text has a string that is not closed. So the tokens of the whole are those of the first text without
its end, and those of the second one, moved by what stands before it.
-/

namespace Monkey

/-! ### Cutting at spacing -/

theorem takeWhile_append_stop {p : Char → Bool} {stop : Char} (stops : p stop = false)
    (text more : List Char) : (text ++ stop :: more).takeWhile p = text.takeWhile p := by
  induction text with
  | nil => simp [stops]
  | cons char rest ih => simp only [List.cons_append, List.takeWhile_cons, ih]

theorem dropWhile_append_stop {p : Char → Bool} {stop : Char} (stops : p stop = false)
    (text more : List Char) :
    (text ++ stop :: more).dropWhile p = text.dropWhile p ++ stop :: more := by
  induction text with
  | nil => simp [stops]
  | cons char rest ih =>
      simp only [List.cons_append, List.dropWhile_cons, ih]
      split <;> rfl

/-- The spacing characters are no part of a longer lexeme. -/
theorem stops_of_isSpacing {char : Char} (spacing : isSpacing char = true) :
    char ≠ '=' ∧ char.isDigit = false ∧ isNameChar char = false := by
  simp only [isSpacing, Bool.or_eq_true, decide_eq_true_eq] at spacing
  rcases spacing with ((rfl | rfl) | rfl) | rfl <;> decide

/-- A token for a string that is not closed. -/
def Token.Unclosed (token : Token) : Prop :=
  token.kind = .illegal ∧ token.literal.toList.head? = some '"'

namespace Lexeme

theorem cutString_append {text : List Char}
    (closed : text.dropWhile (· ≠ '"') ≠ []) (more : List Char) :
    cutString (text ++ more) = ((cutString text).1, (cutString text).2 ++ more) := by
  have shorter : (text.takeWhile (· ≠ '"')).length ≠ text.length := by
    intro sameLength
    have parts := congrArg List.length (@List.takeWhile_append_dropWhile _ (· ≠ '"') text)
    rw [List.length_append, sameLength] at parts
    exact closed (List.length_eq_zero_iff.mp (by omega))
  rcases dropped : text.dropWhile (· ≠ '"') with _ | ⟨quote, rest⟩
  · exact absurd dropped closed
  · simp only [cutString, List.takeWhile_append, List.dropWhile_append, dropped, if_neg shorter]
    rfl

theorem unclosed_cutString {text : List Char} (unclosed : text.dropWhile (· ≠ '"') = [])
    (position : Nat) : (Token.ofLexeme position (cutString text).1).Unclosed := by
  rw [cutString, unclosed]
  exact ⟨rfl, by simp [Token.ofLexeme, plain]⟩

/-- What follows behind spacing does not change the lexeme in front. -/
theorem cut_append {char stop : Char} {text : List Char} {position : Nat}
    (spacing : isSpacing stop = true)
    (closed : ¬ (Token.ofLexeme position (cut char text).1).Unclosed) (more : List Char) :
    cut char (text ++ stop :: more) = ((cut char text).1, (cut char text).2 ++ stop :: more) := by
  rcases stops_of_isSpacing spacing with ⟨noEquals, noDigit, noName⟩
  rw [cut, cut] at *
  cases Symbol.ofChar? char with
  | some symbol =>
      cases text with
      | nil => cases symbol <;> simp [Symbol.withEquals?, noEquals]
      | cons next rest =>
          by_cases equals : next = '='
          · subst equals
            cases symbol <;> rfl
          · cases symbol <;> simp [Symbol.withEquals?, equals]
  | none =>
      by_cases isQuote : char = '"'
      · simp only [isQuote, if_true] at closed ⊢
        exact cutString_append (fun unclosed => closed (unclosed_cutString unclosed position)) _
      · simp only [if_neg isQuote, takeWhile_append_stop noDigit, dropWhile_append_stop noDigit,
          takeWhile_append_stop noName, dropWhile_append_stop noName]
        split
        · rfl
        · split <;> rfl

end Lexeme

/-! ### Moving a text -/

theorem Span.shift_covering (offset start : Nat) (text : List Char) :
    (Span.covering start text).shift offset = .covering (start + offset) text := by
  simp [shift, covering, Nat.add_right_comm]

theorem Segmented.shift {position : Nat} {text : List Char} {tokens : List Token}
    (segmented : Segmented position text tokens) (offset : Nat) :
    Segmented (position + offset) text (tokens.map (Token.shift offset)) := by
  induction segmented with
  | @spacing position blank spacing =>
      have moved := @Segmented.spacing (position + offset) blank spacing
      simpa [Token.eof, Token.shift, Span.shift, Nat.add_right_comm] using moved
  | @lexeme position blank text char tokens spacing solid _ ih =>
      have moved := @Segmented.lexeme (position + offset) blank text char _ spacing solid
        (by simpa [Nat.add_right_comm] using ih)
      simpa [Token.ofLexeme, Token.shift, Span.shift_covering, Nat.add_right_comm] using moved

theorem Segmented.after_spacing {position : Nat} {blank text : List Char} {tokens : List Token}
    (spacing : Spacing blank) (segmented : Segmented (position + byteWidth blank) text tokens) :
    Segmented position (blank ++ text) tokens := by
  have append : ∀ {more : List Char}, Spacing more → Spacing (blank ++ more) :=
    fun moreSpacing => List.forall_mem_append.mpr ⟨spacing, moreSpacing⟩
  cases segmented with
  | spacing textSpacing =>
      simpa [Nat.add_assoc] using @Segmented.spacing position _ (append textSpacing)
  | lexeme textSpacing solid rest =>
      have whole := @Segmented.lexeme position _ _ _ _ (append textSpacing) solid
        (by simpa [Nat.add_assoc] using rest)
      simpa [Nat.add_assoc] using whole

/-! ### Joining -/

/-- Tokens in front of others are the same whatever follows the text behind spacing, as long as none
of them is a string that is not closed. -/
theorem Segmented.exists_front {position : Nat} {text : List Char} {front back : List Token}
    {stop : Char} (segmented : Segmented position text (front ++ back)) (nonempty : back ≠ [])
    (closed : ∀ token ∈ front, ¬ token.Unclosed) (spacing : isSpacing stop = true)
    (more : List Char) :
    ∃ before rest, text = before ++ rest ∧ Segmented (position + byteWidth before) rest back ∧
      ∀ later, Segmented (position + byteWidth before) (rest ++ stop :: more) later →
        Segmented position (text ++ stop :: more) (front ++ later) := by
  -- One token after the other is cut off in both texts, and what is left in both starts alike.
  induction front generalizing position text with
  | nil => exact ⟨[], text, rfl, segmented, fun _ joined => joined⟩
  | cons token front ih =>
      generalize whole : token :: front ++ back = tokens at segmented
      cases segmented with
      | spacing => simp [nonempty] at whole
      | @lexeme _ blank text char _ blankSpacing solid rest =>
          rw [List.cons_append, List.cons.injEq] at whole
          rcases whole with ⟨rfl, rfl⟩
          rcases ih rest fun token member => closed token (List.mem_cons_of_mem _ member) with
            ⟨before, last, isRest, lastSegmented, joins⟩
          have cutWhole := Lexeme.cut_append spacing (closed _ List.mem_cons_self) more
          have split : blank ++ char :: text =
              blank ++ (Lexeme.cut char text).1.source ++ before ++ last := by
            rw [List.append_assoc _ before, ← isRest, List.append_assoc,
              Lexeme.source_append_cut]
          have width : position + byteWidth (blank ++ (Lexeme.cut char text).1.source ++ before) =
              position + byteWidth blank + byteWidth (Lexeme.cut char text).1.source +
                byteWidth before := by
            simp [Nat.add_assoc]
          refine ⟨blank ++ (Lexeme.cut char text).1.source ++ before, last, split, ?_, ?_⟩
          · rwa [width]
          · intro later joined
            rw [width] at joined
            have joinedRest : Segmented
                (position + byteWidth blank +
                  byteWidth (Lexeme.cut char (text ++ stop :: more)).1.source)
                (Lexeme.cut char (text ++ stop :: more)).2 (front ++ later) := by
              rw [cutWhole]
              exact joins later joined
            simpa [cutWhole] using Segmented.lexeme blankSpacing solid joinedRest

theorem Segmented.append {position : Nat} {text more blank : List Char} {tokens later : List Token}
    (segmented : Segmented position text tokens) (closed : ∀ token ∈ tokens, ¬ token.Unclosed)
    (spacing : Spacing blank) (nonempty : blank ≠ [])
    (moreSegmented : Segmented (position + byteWidth (text ++ blank)) more later) :
    Segmented position (text ++ blank ++ more) (tokens.dropLast ++ later) := by
  rcases blank with _ | ⟨stop, blank⟩
  · exact absurd rfl nonempty
  rcases segmented.ends with ⟨front, finish, rfl, -⟩
  have closedFront : ∀ token ∈ front, ¬ token.Unclosed := fun token member =>
    closed token (List.mem_append_left _ member)
  rcases segmented.exists_front (List.cons_ne_nil _ _) closedFront (spacing stop List.mem_cons_self)
    (blank ++ more) with ⟨before, rest, rfl, last, joins⟩
  -- Behind the last lexeme there is only spacing, in front of the text that follows.
  have restSpacing : Spacing (rest ++ stop :: blank) :=
    List.forall_mem_append.mpr ⟨last.spacing_of_end, spacing⟩
  have joined := joins later (by
    simpa using Segmented.after_spacing restSpacing (by simpa [Nat.add_assoc] using moreSegmented))
  simpa using joined

/-- The tokens of two texts with spacing between them. -/
theorem tokenize_append {first blank second : String} (spacing : Spacing blank.toList)
    (nonempty : blank ≠ "") (closed : ∀ token ∈ tokenize first, ¬ token.Unclosed) :
    tokenize (first ++ blank ++ second) =
      (tokenize first).dropLast ++
        (tokenize second).map (Token.shift (first ++ blank).utf8ByteSize) := by
  have moved := (segmented_tokenize second).shift (byteWidth (first.toList ++ blank.toList))
  have nonemptyList : blank.toList ≠ [] := by simpa using nonempty
  have tokens := ((segmented_tokenize first).append closed spacing nonemptyList moved).eq_tokens
  rw [← String.toList_append, ← String.toList_append, byteWidth_toList] at tokens
  exact tokens.symm

end Monkey
