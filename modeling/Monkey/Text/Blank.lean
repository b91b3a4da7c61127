/-!
# Blank characters

Two notions of white space meet in a session. Between tokens only four characters are skipped; a
whole line, on the other hand, is blank when it holds nothing but characters with the Unicode
property White_Space.
-/

namespace Monkey

/-- The characters that may stand between two tokens. -/
def isSpacing (char : Char) : Bool :=
  char = ' ' || char = '\t' || char = '\n' || char = '\r'

/-- Whether a character has the Unicode property White_Space. -/
def isBlank (char : Char) : Bool :=
  let point := char.toNat
  (9 ≤ point && point ≤ 13) || point = 32 || point = 133 || point = 160 || point = 5760 ||
    (8192 ≤ point && point ≤ 8202) || point = 8232 || point = 8233 || point = 8239 ||
    point = 8287 || point = 12288

/-- Whatever may stand between two tokens is blank. -/
theorem isBlank_of_isSpacing {char : Char} (spacing : isSpacing char) : isBlank char := by
  simp only [isSpacing, Bool.or_eq_true, decide_eq_true_eq] at spacing
  rcases spacing with ((rfl | rfl) | rfl) | rfl <;> decide

/-- A text without the blank characters at its two ends. -/
def trimmed (text : List Char) : List Char :=
  ((text.dropWhile isBlank).reverse.dropWhile isBlank).reverse

end Monkey
