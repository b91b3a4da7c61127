import Monkey.Text.Quoted
import Monkey.Text.Span
import Monkey.Token.Lexeme

/-!
# Tokens

A token is a lexeme with its place in the source: a kind, what it says, and a span.
-/

namespace Monkey

/-- The unit that programs are read from. -/
structure Token where
  /-- What the token is. -/
  kind : Kind
  /-- What the token says: its text, or for a string what stands between the quotes. -/
  literal : String
  /-- The bytes of the source that it occupies. -/
  span : Span
deriving DecidableEq

namespace Token

/-- The end of a source that is `position` bytes long. -/
def eof (position : Nat) : Token := ⟨.eof, "", ⟨position, position⟩⟩

/-- The token of a lexeme that is written at `position`. -/
def ofLexeme (position : Nat) (lexeme : Lexeme) : Token :=
  ⟨lexeme.kind, String.ofList lexeme.literal, .covering position lexeme.source⟩

/-- How a token is shown: a string in quotes, the end of the source by name, all else as it is. -/
def text (token : Token) : String :=
  match token.kind with
  | .eof => "EOF"
  | .str => quoted token.literal
  | _ => token.literal

/-- The same token further into a text. -/
def shift (offset : Nat) (token : Token) : Token := { token with span := token.span.shift offset }

end Token

end Monkey
