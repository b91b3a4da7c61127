import Monkey.Text.Span
import Monkey.Token.Kind

/-!
# Parse errors

A parse error names the token at which a statement could not be continued, by its kind or its
text and by its span.
-/

namespace Monkey

/-- Why a statement could not be read. -/
inductive ParseError where
  /-- Only one kind of token could follow, and another one did. -/
  | expected (wanted got : Kind) (span : Span)
  /-- An expression had to start here, and no expression starts with this kind of token. -/
  | noExpression (got : Kind) (span : Span)
  /-- An integer literal is out of range or malformed. -/
  | badInteger (literal : String) (span : Span)
deriving DecidableEq

namespace ParseError

/-- The span of the token that is to blame. -/
def span : ParseError → Span
  | expected _ _ span | noExpression _ span | badInteger _ span => span

/-- What the error says. -/
def message : ParseError → String
  | expected wanted got _ =>
    "expected next token to be " ++ wanted.text ++ ", got " ++ got.text ++ " instead"
  | noExpression got _ => "no prefix parse function for " ++ got.text ++ " found"
  | badInteger literal _ => "could not parse " ++ literal ++ " as integer"

end ParseError

end Monkey
