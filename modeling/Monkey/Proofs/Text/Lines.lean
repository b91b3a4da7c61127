import Mathlib.Data.List.DropRight
import Monkey.Text.Blank
import Monkey.Text.Line

/-!
# Lines and words of an input

A stream of bytes has its lines in one way only: each ends with its only line feed, and just the last
one may do without. Text that ends with a line feed can be cut on its own. A line says a word if there
is nothing but white space around that.
-/

namespace Monkey

/-! ### Lines -/

/-- The lines of a stream. Only the last one may lack the line feed, and then it is not empty. -/
inductive LinesOf : List UInt8 → List (List UInt8) → Prop where
  | nil : LinesOf [] []
  | last {bytes : List UInt8} (nonempty : bytes ≠ []) (noFeed : 10 ∉ bytes) : LinesOf bytes [bytes]
  | cons {line bytes : List UInt8} {rest : List (List UInt8)} (noFeed : 10 ∉ line)
      (others : LinesOf bytes rest) : LinesOf (line ++ 10 :: bytes) ((line ++ [10]) :: rest)

/-- What comes behind a line feed has lines of its own. -/
theorem LinesOf.append {bytes more : List UInt8} {lines others : List (List UInt8)}
    (isLines : LinesOf bytes lines) (ends : ∀ byte ∈ bytes.getLast?, byte = 10)
    (moreLines : LinesOf more others) : LinesOf (bytes ++ more) (lines ++ others) := by
  induction isLines with
  | nil => exact moreLines
  | @last bytes nonempty noFeed =>
      have feed := ends _ (List.getLast?_eq_some_getLast nonempty)
      exact absurd (feed ▸ List.getLast_mem nonempty) noFeed
  | @cons line bytes rest noFeed _ ih =>
      have restEnds : ∀ byte ∈ bytes.getLast?, byte = 10 := by
        intro byte isLast
        apply ends
        rw [List.getLast?_append, List.getLast?_cons, Option.mem_def.mp isLast]
        rfl
      rw [List.append_assoc, List.cons_append]
      exact .cons noFeed (ih restEnds)

/-! ### Words -/

/-- The line has nothing but white space around the word. -/
def Says (word line : String) : Prop :=
  ∃ front back : List Char, line.toList = front ++ word.toList ++ back ∧
    (∀ char ∈ front, isBlank char = true) ∧ ∀ char ∈ back, isBlank char = true

/-- A word that starts and ends with no white space is what is left of a line if there is nothing but
white space around it. -/
theorem trimmed_eq_iff {word text : List Char} (nonempty : word ≠ [])
    (starts : isBlank (word.head nonempty) = false)
    (ends : isBlank (word.getLast nonempty) = false) :
    trimmed text = word ↔ ∃ front back : List Char, text = front ++ word ++ back ∧
      (∀ char ∈ front, isBlank char = true) ∧ ∀ char ∈ back, isBlank char = true := by
  change (text.dropWhile isBlank).rdropWhile isBlank = word ↔ _
  constructor
  · rintro rfl
    refine ⟨text.takeWhile isBlank, (text.dropWhile isBlank).rtakeWhile isBlank, ?_,
      fun _ => List.mem_takeWhile_imp, fun _ => List.mem_rtakeWhile_imp⟩
    rw [List.append_assoc, List.rdropWhile_append_rtakeWhile, List.takeWhile_append_dropWhile]
  · rintro ⟨front, back, rfl, frontBlank, backBlank⟩
    have behindFront : (word ++ back).dropWhile isBlank = word ++ back := by
      rcases List.exists_cons_of_ne_nil nonempty with ⟨first, more, rfl⟩
      exact List.dropWhile_cons_of_neg (by simpa using starts)
    have backReversed : ∀ char ∈ back.reverse, isBlank char = true := by simpa using backBlank
    have self : word.rdropWhile isBlank = word :=
      List.rdropWhile_eq_self_iff.mpr fun _ => by simp [ends]
    rw [List.append_assoc, List.dropWhile_append_of_pos frontBlank, behindFront, List.rdropWhile,
      List.reverse_append, List.dropWhile_append_of_pos backReversed]
    exact self

end Monkey
