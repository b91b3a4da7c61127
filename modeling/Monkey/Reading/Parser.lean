import Monkey.Reading.Basic
import Monkey.Token.Stream

/-!
# Parsing

A `Parser` reads the statements of a program from a list of tokens. The list may lack an end, or
hold one anywhere: reading ends at the first end of the source that stands between two
statements of the program, and where the tokens run out the source ends right behind the last of
them.
-/

namespace Monkey

/-- Takes tokens until the program has ended. Gives the outcomes, the last state, and the tokens
that have not been taken; the end of the program is not taken. -/
def Reading.run (state : Reading) : List Token → List Outcome × Reading × List Token
  | [] => ([], state, [])
  | token :: rest =>
    match state.step token with
    | (outcomes, .ended) => (outcomes, .ended, token :: rest)
    | (outcomes, next) =>
      let (later, last, unread) := next.run rest
      (outcomes ++ later, last, unread)

/-- The statements among outcomes. -/
def Outcome.program (outcomes : List Outcome) : Program :=
  outcomes.filterMap fun
    | .parsed stmt => some stmt
    | .failed _ => none

/-- The errors among outcomes. -/
def Outcome.errors (outcomes : List Outcome) : List ParseError :=
  outcomes.filterMap fun
    | .parsed _ => none
    | .failed error => some error

/-- Tokens that are being read. -/
structure Parser where
  /-- The tokens that have not been taken. -/
  unread : List Token
  /-- The position at which the source ends if the tokens do not say so. -/
  finish : Nat

namespace Parser

/-- A parser at the start of a list of tokens. -/
def ofTokens (tokens : List Token) : Parser :=
  ⟨tokens, (tokens.getLast?.map fun token => token.span.stop).getD 0⟩

/-- Reads statements up to the end of the program. -/
def parseProgram (parser : Parser) : List Outcome × Parser :=
  match Reading.start.run parser.unread with
  | (outcomes, .ended, unread) => (outcomes, { parser with unread := unread })
  | (outcomes, state, unread) =>
    (outcomes ++ (state.step (.eof parser.finish)).1, { parser with unread := unread })

end Parser

/-- What reading a list of tokens yields. -/
def outcomesOf (tokens : List Token) : List Outcome := (Parser.ofTokens tokens).parseProgram.1

/-- The program that a list of tokens spells, without the statements that failed, and the errors of
those, in order. -/
def parse (tokens : List Token) : Program × List ParseError :=
  (Outcome.program (outcomesOf tokens), Outcome.errors (outcomesOf tokens))

/-- The program and the errors of a source text. -/
def parseText (source : String) : Program × List ParseError := parse (tokenize source)

end Monkey
