/-!
# Lines of a byte stream

A line of input ends with, and contains, a line feed; only the last one may lack it. No line is
empty, and the lines of a stream put together are the stream.
-/

namespace Monkey

/-- Cuts a byte stream after each line feed. -/
def byteLines : List UInt8 → List (List UInt8)
  | [] => []
  | byte :: rest =>
    if byte = 10 then [byte] :: byteLines rest
    else
      match byteLines rest with
      | [] => [[byte]]
      | line :: later => (byte :: line) :: later

/-- Cutting a stream into lines neither loses nor adds a byte. -/
theorem flatten_byteLines (bytes : List UInt8) : (byteLines bytes).flatten = bytes := by
  induction bytes with
  | nil => rfl
  | cons byte rest ih =>
    rw [byteLines]
    split
    · simp [ih]
    · split
      · rename_i none_left
        simp [none_left] at ih
        simp [← ih]
      · rename_i some_left
        simp [some_left] at ih
        simp [← ih]

/-- The text of a line, unless its bytes are not valid UTF-8. -/
def lineText? (bytes : List UInt8) : Option String := String.fromUTF8? ⟨bytes.toArray⟩

end Monkey
