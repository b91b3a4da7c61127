/-!
# Spans of source text

A position in a source text is a number of bytes of its UTF-8 form, and a span is the range between
two positions. Every token and every complaint about a program carries the span it speaks of.
-/

namespace Monkey

/-- The number of bytes that a text occupies in UTF-8. -/
def byteWidth : List Char → Nat
  | [] => 0
  | char :: rest => char.utf8Size + byteWidth rest

@[simp]
theorem byteWidth_nil : byteWidth [] = 0 := rfl

@[simp]
theorem byteWidth_cons (char : Char) (rest : List Char) :
    byteWidth (char :: rest) = char.utf8Size + byteWidth rest := rfl

@[simp]
theorem byteWidth_append (first second : List Char) :
    byteWidth (first ++ second) = byteWidth first + byteWidth second := by
  induction first with
  | nil => simp
  | cons char rest ih => simp [ih, Nat.add_assoc]

/-- The width of a text is the length of its UTF-8 form. -/
theorem byteWidth_toList (text : String) : byteWidth text.toList = text.utf8ByteSize := by
  suffices forms : ∀ chars, byteWidth chars = (String.ofList chars).utf8ByteSize by
    rw [forms, String.ofList_toList]
  intro chars
  induction chars with
  | nil => simp
  | cons char rest ih =>
    have split_first :
        String.ofList (char :: rest) = String.singleton char ++ String.ofList rest := by
      rw [String.singleton_eq_ofList, ← String.ofList_append, List.singleton_append]
    rw [byteWidth_cons, ih, split_first, String.utf8ByteSize_append, String.utf8ByteSize_singleton]

/-- A range of byte positions in a source text; the end position is not part of it. -/
structure Span where
  /-- The position of the first byte. -/
  start : Nat
  /-- The position after the last byte. -/
  stop : Nat
deriving DecidableEq

namespace Span

/-- The empty span at the start of a text. -/
def origin : Span := ⟨0, 0⟩

/-- The span of `text` when it is written at position `start`. -/
def covering (start : Nat) (text : List Char) : Span := ⟨start, start + byteWidth text⟩

/-- The empty span right after a span. -/
def endPoint (span : Span) : Span := ⟨span.stop, span.stop⟩

/-- A span moved `offset` bytes further into the text. -/
def shift (offset : Nat) (span : Span) : Span := ⟨span.start + offset, span.stop + offset⟩

/-- A span is written as its two positions, with a colon between them. -/
def text (span : Span) : String := toString span.start ++ ":" ++ toString span.stop

/-- How a span is named at the end of a complaint. -/
def located (span : Span) : String := "(at " ++ span.text ++ ")"

end Span

end Monkey
