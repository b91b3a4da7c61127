/-!
# Decimal numerals

Integers of the language are the signed 64-bit numbers. They are read from, and written as, decimal
numerals: `readInteger?` takes an optional sign and at least one digit and refuses what is out of
range, `writeInteger` gives the numeral without leading zeros.
-/

namespace Monkey

/-- The least integer of the language. -/
def minInteger : Int := -9223372036854775808

/-- The greatest integer of the language. -/
def maxInteger : Int := 9223372036854775807

/-- Whether an integer fits the 64 bits that the language gives it. -/
def inRange (value : Int) : Bool := minInteger ≤ value && value ≤ maxInteger

/-- The value of a run of decimal digits; there must be at least one. -/
def readDigits? (digits : List Char) : Option Nat :=
  if digits ≠ [] ∧ digits.all Char.isDigit then some (Nat.ofDigitChars 10 digits 0) else none

/-- The value that an integer literal stands for, if it is one and in range. -/
def readInteger? (literal : List Char) : Option Int :=
  let value? : Option Int :=
    match literal with
    | '-' :: digits => (readDigits? digits).map fun (size : Nat) => -(size : Int)
    | '+' :: digits => (readDigits? digits).map fun (size : Nat) => (size : Int)
    | digits => (readDigits? digits).map fun (size : Nat) => (size : Int)
  value?.filter inRange

/-- The decimal numeral of an integer. -/
def writeInteger (value : Int) : String := value.repr

end Monkey
