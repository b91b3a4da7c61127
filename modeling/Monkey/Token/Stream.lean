import Monkey.Text.Blank
import Monkey.Token.Basic

/-!
# Token streams

A `Cursor` is the part of a source text that has not been cut into tokens yet. `Cursor.next`
skips spacing and cuts off one token; at the end of the text it gives the end token, and stays
there. `Cursor.tokens` is the list of all tokens up to and including the first end token.

A `Stream` hands out the tokens of one cursor in two ways. `nextToken` always answers, with the
end token again and again once the text is used up; `pull?` hands out the end token once and
nothing after.
-/

namespace Monkey

/-- The rest of a source text and its position in the whole. -/
structure Cursor where
  /-- The position of the rest. -/
  position : Nat
  /-- The text that is still to be cut into tokens. -/
  text : List Char
deriving DecidableEq

namespace Cursor

/-- The cursor at the start of a source text. -/
def ofString (source : String) : Cursor := ⟨0, source.toList⟩

/-- The cursor behind all text. -/
def atEnd (cursor : Cursor) : Cursor := ⟨cursor.position + byteWidth cursor.text, []⟩

/-- The next token, and the cursor behind it. -/
def next (cursor : Cursor) : Token × Cursor :=
  match cursor.text.dropWhile isSpacing with
  | [] => (.eof cursor.atEnd.position, cursor.atEnd)
  | char :: text =>
    let start := cursor.position + byteWidth (cursor.text.takeWhile isSpacing)
    let (lexeme, rest) := Lexeme.cut char text
    (.ofLexeme start lexeme, ⟨start + byteWidth lexeme.source, rest⟩)

/-- Every token but the end takes some text away. -/
theorem length_next_lt {cursor : Cursor} (more : cursor.next.1.kind ≠ .eof) :
    cursor.next.2.text.length < cursor.text.length := by
  unfold next at more ⊢
  split at more
  · simp [Token.eof] at more
  · rename_i char text remaining
    change (Lexeme.cut char text).2.length < cursor.text.length
    have shorter := (@List.dropWhile_sublist _ cursor.text isSpacing).length_le
    rw [remaining] at shorter
    have cut_shorter := Lexeme.length_cut_lt char text
    simp only [List.length_cons] at shorter
    omega

/-- All tokens from the cursor on; the last one, and no other, is the end of the source. -/
def tokens (cursor : Cursor) : List Token :=
  if _ : cursor.next.1.kind ≠ .eof then cursor.next.1 :: cursor.next.2.tokens
  else [cursor.next.1]
termination_by cursor.text.length
decreasing_by exact length_next_lt ‹_›

end Cursor

/-- The tokens of a source text, the end included. -/
def tokenize (source : String) : List Token := (Cursor.ofString source).tokens

/-- A cursor whose tokens are handed out one at a time. -/
structure Stream where
  /-- The text whose tokens have not been handed out. -/
  cursor : Cursor
  /-- Whether `pull?` has handed out the end of the source. -/
  finished : Bool
deriving DecidableEq

namespace Stream

/-- The stream of all tokens of a source text. -/
def ofString (source : String) : Stream := ⟨.ofString source, false⟩

/-- The next token; behind the last one, the end of the source for ever. -/
def nextToken (stream : Stream) : Token × Stream :=
  (stream.cursor.next.1, { stream with cursor := stream.cursor.next.2 })

/-- The next token, unless this function has handed out the end of the source before. -/
def pull? (stream : Stream) : Option Token × Stream :=
  if stream.finished then (none, stream)
  else (some stream.cursor.next.1, ⟨stream.cursor.next.2, stream.cursor.next.1.kind = .eof⟩)

/-- All tokens that `pull?` still hands out, and the stream after that. -/
def drain (stream : Stream) : List Token × Stream :=
  if stream.finished then ([], stream) else (stream.cursor.tokens, ⟨stream.cursor.atEnd, true⟩)

end Stream

end Monkey
