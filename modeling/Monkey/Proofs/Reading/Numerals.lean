import Mathlib.Algebra.Group.Nat.Defs
import Monkey.Proofs.Printing.RoundTrip
import Monkey.Proofs.Reading.Course

/-!
# Integer literals of any length

Decimal digits stand for a number, each of them according to its place. However many there are, and
whatever zeros stand in front, they are read as that number if it is an integer of the language, and are
themselves to blame if it is not. A number is written without leading zeros, in the only way there is, and
what is written is read as the number again.
-/

namespace Monkey

/-! ### Decimal digits -/

/-- The number that decimal digits stand for, each according to its place. -/
def decimalValue : List Char → Nat
  | [] => 0
  | digit :: rest => (digit.toNat - '0'.toNat) * 10 ^ rest.length + decimalValue rest

/-- The digits stand for the number, and none of them is a leading zero. -/
structure IsDecimal (digits : List Char) (value : Nat) : Prop where
  nonempty : digits ≠ []
  decimal : ∀ digit ∈ digits, digit.isDigit = true
  value_eq : decimalValue digits = value
  noLeadingZero : digits.head? = some '0' → digits = ['0']

theorem ofDigitChars_eq_decimalValue (digits : List Char) :
    Nat.ofDigitChars 10 digits 0 = decimalValue digits := by
  induction digits with
  | nil => rfl
  | cons digit rest ih =>
      rw [Nat.ofDigitChars_cons, Nat.ofDigitChars_eq_ofDigitChars_zero, ih, decimalValue]
      simp [Nat.mul_comm]

theorem isDecimal_toDigits (value : Nat) : IsDecimal (Nat.toDigits 10 value) value := by
  refine ⟨Nat.toDigits_ne_nil, isDigit_of_mem_toDigits, ?_, ?_⟩
  · rw [← ofDigitChars_eq_decimalValue, Nat.ofDigitChars_ten_toDigits]
  · induction value using Nat.strongRecOn with
    | ind value ih =>
        intro zero
        rcases Nat.lt_or_ge value 10 with small | large
        · rw [Nat.toDigits_of_lt_base small] at zero ⊢
          simpa using zero
        · rw [Nat.toDigits_of_base_le (by omega) large] at zero ⊢
          rcases List.exists_cons_of_ne_nil (@Nat.toDigits_ne_nil (value / 10) 10) with
            ⟨first, more, front⟩
          have single := ih (value / 10) (by omega) (by rw [front] at zero ⊢; exact zero)
          have size : value / 10 = 0 := by
            rw [← @Nat.ofDigitChars_ten_toDigits (value / 10), single]
            rfl
          omega

theorem digitChar_of_isDigit {digit : Char} (isDigit : digit.isDigit = true) :
    digit.toNat - '0'.toNat < 10 ∧ Nat.digitChar (digit.toNat - '0'.toNat) = digit := by
  have range : 48 ≤ digit.toNat ∧ digit.toNat ≤ 57 := Char.isDigit_iff_toNat.mp isDigit
  have small : digit.toNat - '0'.toNat < 10 := by
    change digit.toNat - 48 < 10
    omega
  refine ⟨small, Char.toNat_inj.mp ?_⟩
  rw [Nat.toNat_digitChar_of_lt_ten small]
  change 48 + (digit.toNat - 48) = digit.toNat
  omega

/-- Digits behind a number without leading zeros go on with it. -/
theorem toDigits_append {front : Nat} (positive : 0 < front) {rest : List Char}
    (decimal : ∀ digit ∈ rest, digit.isDigit = true) :
    Nat.toDigits 10 front ++ rest = Nat.toDigits 10 (Nat.ofDigitChars 10 rest front) := by
  induction rest generalizing front with
  | nil => simp
  | cons digit rest ih =>
      rcases List.forall_mem_cons.mp decimal with ⟨isDigit, restDecimal⟩
      rcases digitChar_of_isDigit isDigit with ⟨small, isChar⟩
      have next := Nat.toDigits_append_toDigits (show 1 < 10 by decide) positive small
      rw [Nat.toDigits_of_lt_base small, isChar] at next
      rw [List.append_cons, next, Nat.ofDigitChars_cons]
      exact ih (by omega) restDecimal

/-- There is only one way to write a number without leading zeros. -/
theorem IsDecimal.eq_toDigits {digits : List Char} {value : Nat}
    (isDecimal : IsDecimal digits value) : digits = Nat.toDigits 10 value := by
  rcases digits with _ | ⟨first, rest⟩
  · exact absurd rfl isDecimal.nonempty
  rcases List.forall_mem_cons.mp isDecimal.decimal with ⟨isDigit, restDecimal⟩
  rcases digitChar_of_isDigit isDigit with ⟨small, isChar⟩
  have size := isDecimal.value_eq
  rw [← ofDigitChars_eq_decimalValue, Nat.ofDigitChars_cons, Nat.mul_zero, Nat.zero_add] at size
  by_cases zero : first = '0'
  · subst zero
    cases isDecimal.noLeadingZero rfl
    rw [← size]
    rfl
  · have positive : 0 < first.toNat - '0'.toNat := by
      apply Nat.pos_of_ne_zero
      intro none
      rw [none] at isChar
      exact zero isChar.symm
    have whole := toDigits_append positive restDecimal
    rw [Nat.toDigits_of_lt_base small, isChar, size] at whole
    exact whole

/-! ### Literals -/

theorem byteWidth_of_digits {digits : List Char} (decimal : ∀ digit ∈ digits, digit.isDigit = true) :
    byteWidth digits = digits.length := by
  induction digits with
  | nil => rfl
  | cons digit rest ih =>
      rcases List.forall_mem_cons.mp decimal with ⟨isDigit, restDecimal⟩
      have range := (Char.isDigit_iff_toNat.mp isDigit).2
      have width : digit.utf8Size = 1 := by
        apply Char.utf8Size_eq_one_iff.mpr
        exact Nat.le_trans range (by decide)
      rw [byteWidth_cons, width, ih restDecimal, List.length_cons, Nat.add_comm]

/-- Digits are one token, and nothing else is in their text. -/
theorem tokenize_digits {digits : List Char} (nonempty : digits ≠ [])
    (decimal : ∀ digit ∈ digits, digit.isDigit = true) :
    tokenize (String.ofList digits) =
      [⟨.int, String.ofList digits, ⟨0, digits.length⟩⟩, .eof digits.length] := by
  rcases digits with _ | ⟨first, more⟩
  · exact absurd rfl nonempty
  have stops : ∀ char ∈ ([] : List Char).head?, char.isDigit = false := nofun
  have isCut := Lexeme.cut_digits decimal stops
  rw [List.append_nil] at isCut
  have solid := (solid_of_isDigit (decimal first List.mem_cons_self)).1
  have tokens := @Cursor.tokens_of_solid 0 [] more first .nil solid
  rw [isCut] at tokens
  have width := byteWidth_of_digits decimal
  rw [Cursor.tokens_of_spacing .nil] at tokens
  rw [tokenize, Cursor.ofString, String.toList_ofList]
  simpa [Token.ofLexeme, Lexeme.plain, Span.covering, width] using tokens

theorem readInteger?_digits {digits : List Char} (nonempty : digits ≠ [])
    (decimal : ∀ digit ∈ digits, digit.isDigit = true) :
    readInteger? digits =
      if decimalValue digits ≤ 2 ^ 63 - 1 then some (decimalValue digits : Int) else none := by
  rcases digits with _ | ⟨first, more⟩
  · exact absurd rfl nonempty
  have size : readDigits? (first :: more) = some (decimalValue (first :: more)) :=
    readDigits?_eq_some_iff.mpr ⟨nonempty, decimal, ofDigitChars_eq_decimalValue _⟩
  have isDigit := decimal first List.mem_cons_self
  have unsigned : first ≠ '-' ∧ first ≠ '+' := by
    constructor <;> rintro rfl <;> simp [Char.isDigit] at isDigit
  generalize decimalValue (first :: more) = value at size ⊢
  have inside : inRange value = decide (value ≤ 2 ^ 63 - 1) := by
    apply Bool.eq_iff_iff.mpr
    rw [inRange_iff, decide_eq_true_eq, minInteger, maxInteger]
    omega
  simp [readInteger?, unsigned, size, Option.filter, inside]

/-- An integer literal that stands alone is read as its value; if it has none, it is to blame. -/
theorem parse_literal (literal : String) (span : Span) (position : Nat) :
    parse [⟨.int, literal, span⟩, .eof position] =
      match readInteger? literal.toList with
      | some value => ([.expr (.int value)], [])
      | none => ([], [.badInteger literal span]) := by
  have finishKind : (Token.eof position).kind = .eof := rfl
  have outcomes := outcomesOf_end finishKind [⟨.int, literal, span⟩]
  rw [List.singleton_append] at outcomes
  rw [parse, outcomes, Reading.feed_cons, Step.fst_after, Reading.feed_singleton]
  cases reads : readInteger? literal.toList with
  | some value =>
      have taken : Reading.start.step ⟨.int, literal, span⟩ =
          ([], .operator (.int value) (.statement .program)) := by
        simp [Reading.start, Reading.step, StmtHole.start, ExprHole.start, reads]
      rw [taken]
      rfl
  | none =>
      have taken : Reading.start.step ⟨.int, literal, span⟩ =
          (ParseError.badInteger literal span).skip := by
        simp [Reading.start, Reading.step, StmtHole.start, ExprHole.start, reads]
      rw [taken, ParseError.skip, Reading.step_start_end finishKind]
      rfl

theorem parseText_of_digits {digits : List Char} (nonempty : digits ≠ [])
    (decimal : ∀ digit ∈ digits, digit.isDigit = true) :
    parseText (String.ofList digits) =
      if decimalValue digits ≤ 2 ^ 63 - 1 then ([.expr (.int (decimalValue digits))], [])
      else ([], [.badInteger (String.ofList digits) ⟨0, digits.length⟩]) := by
  rw [parseText, tokenize_digits nonempty decimal, parse_literal, String.toList_ofList,
    readInteger?_digits nonempty decimal]
  by_cases fits : decimalValue digits ≤ 2 ^ 63 - 1
  · simp only [if_pos fits]
  · simp only [if_neg fits]

/-- The text of a number that an integer literal can stand for is its decimal form, and it is read as that
number. -/
structure WritesDecimal (value : Nat) : Prop where
  form : ∀ text : String, text = (Expr.int value).text ↔ IsDecimal text.toList value
  readsBack : parseText (Expr.int value).text = ([.expr (.int value)], [])

theorem toList_text_int (value : Nat) : (Expr.int value).text.toList = Nat.toDigits 10 value :=
  toList_writeInteger value

theorem writesDecimal {value : Nat} (fits : value ≤ 2 ^ 63 - 1) : WritesDecimal value := by
  have isDecimal := isDecimal_toDigits value
  refine ⟨fun text => ⟨?_, fun written => ?_⟩, ?_⟩
  · rintro rfl
    rw [toList_text_int]
    exact isDecimal
  · apply String.toList_injective
    rw [toList_text_int, written.eq_toDigits]
  · have reads := parseText_of_digits isDecimal.nonempty isDecimal.decimal
    rw [← toList_text_int, String.ofList_toList, toList_text_int, isDecimal.value_eq,
      if_pos fits] at reads
    exact reads

/-- Digits, however many there are, are read as the number that they stand for, if an integer literal can
stand for it; if not, they are the literal to blame. -/
theorem parseText_digits {digits : String} (nonempty : digits ≠ "")
    (decimal : ∀ digit ∈ digits.toList, digit.isDigit = true) :
    (decimalValue digits.toList ≤ 2 ^ 63 - 1 →
      parseText digits = ([.expr (.int (decimalValue digits.toList))], []) ∧
        WritesDecimal (decimalValue digits.toList)) ∧
    (2 ^ 63 - 1 < decimalValue digits.toList →
      parseText digits = ([], [.badInteger digits ⟨0, digits.length⟩])) := by
  have nonemptyList : digits.toList ≠ [] := fun empty => nonempty (String.toList_eq_nil_iff.mp empty)
  have reads := parseText_of_digits nonemptyList decimal
  rw [String.ofList_toList, String.length_toList] at reads
  constructor
  · intro fits
    rw [if_pos fits] at reads
    exact ⟨reads, writesDecimal fits⟩
  · intro tooLarge
    rw [if_neg (Nat.not_le.mpr tooLarge)] at reads
    exact reads

/-- With zeros in front the greatest integer is read, and written without them; the number behind it is
refused. -/
theorem parseText_digits_at_limit :
    parseText "009223372036854775807" = ([.expr (.int 9223372036854775807)], []) ∧
      WritesDecimal 9223372036854775807 ∧
      parseText "9223372036854775808" = ([], [.badInteger "9223372036854775808" ⟨0, 19⟩]) := by
  have lastDecimal := List.all_eq_true.mp
    (show "009223372036854775807".toList.all Char.isDigit = true by decide)
  have nextDecimal := List.all_eq_true.mp
    (show "9223372036854775808".toList.all Char.isDigit = true by decide)
  have last := (parseText_digits (by decide) lastDecimal).1 (by decide +kernel)
  have next := (parseText_digits (by decide) nextDecimal).2 (by decide +kernel)
  exact ⟨last.1, last.2, next⟩

end Monkey
