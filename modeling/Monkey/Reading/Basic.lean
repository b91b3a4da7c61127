import Monkey.Program.Basic
import Monkey.Reading.Error
import Monkey.Reading.Hole
import Monkey.Text.Numeral
import Monkey.Token.Basic

/-!
# Reading token by token

A program is read by a machine that takes one token at a time and never looks ahead: a token
that cannot extend an expression first completes it, and is then read as what follows. The state
is the program read so far, a tree with a hole, together with what may come next.

Taking a token yields outcomes: statements of the program that are complete, and errors. An
error discards the unfinished statement of the program with all that it contains. If the token
is not the wanted one, reading goes on with this token as the start of a statement; if it cannot
start an expression, or is a bad literal, or ends the source inside a body, reading goes on
behind it.
-/

namespace Monkey

/-- What reading yields. -/
inductive Outcome where
  /-- A complete statement of the program. -/
  | parsed (stmt : Stmt)
  /-- An error in place of a statement. -/
  | failed (error : ParseError)
deriving DecidableEq

/-- What has been read, and what may come next. -/
inductive Reading where
  /-- The source has ended between two statements of the program. -/
  | ended
  /-- A statement may start. -/
  | statement (hole : StmtHole)
  /-- An expression must start. -/
  | operand (hole : ExprHole)
  /-- An operand is complete; an operator, a call or the end of the expression may come. -/
  | operator (value : Expr) (hole : ExprHole)
  /-- A call has been opened; its first argument or its end must come. -/
  | firstArgument (callee : Expr) (hole : ExprHole)
  /-- The first branch of a choice is complete; a second one may come. -/
  | otherwise (condition : Expr) (consequence : List Stmt) (hole : ExprHole)
  /-- The name that a let statement binds must come. -/
  | letName (hole : StmtHole)
  /-- The first parameter, or the end of an empty list of parameters, must come. -/
  | firstParam (hole : ExprHole)
  /-- A parameter must come. -/
  | laterParam (earlier : List String) (hole : ExprHole)
  /-- A parameter is complete; a comma or the end of the list must come. -/
  | paramEnd (earlier : List String) (hole : ExprHole)
  /-- One symbol must come, and leads to the next state. -/
  | expect (symbol : Symbol) (next : Reading)

/-- Outcomes, in order, and the state after them. -/
abbrev Step := List Outcome × Reading

/-- Outcomes before those of a step. -/
def Step.after (outcomes : List Outcome) (step : Step) : Step := (outcomes ++ step.1, step.2)

/-- The state before the first statement of the program. -/
def Reading.start : Reading := .statement .program

/-- A token that is to blame and is not read again. -/
def ParseError.skip (error : ParseError) : Step := ([.failed error], .start)

/-- Puts a complete statement in its place, and gives the place of the next one. -/
def StmtHole.fill (stmt : Stmt) : StmtHole → List Outcome × StmtHole
  | .program => ([.parsed stmt], .program)
  | .block earlier outer => ([], .block (stmt :: earlier) outer)
  | .consequence test earlier outer => ([], .consequence test (stmt :: earlier) outer)
  | .alternative test branch earlier outer =>
    ([], .alternative test branch (stmt :: earlier) outer)
  | .body params earlier outer => ([], .body params (stmt :: earlier) outer)

/-- Closes the innermost body, unless the hole is in none. -/
def StmtHole.close? : StmtHole → Option Step
  | .program => none
  | .block earlier outer =>
    let (outcomes, hole) := outer.fill (.block earlier.reverse)
    some (outcomes, .statement hole)
  | .consequence test earlier outer => some ([], .otherwise test earlier.reverse outer)
  | .alternative test branch earlier outer =>
    some ([], .operator (.ifElse test branch earlier.reverse) outer)
  | .body params earlier outer => some ([], .operator (.fn params earlier.reverse) outer)

/-- The source ends where a statement may start. -/
def StmtHole.finish (token : Token) : StmtHole → Step
  | .program => ([], .ended)
  | _ => (ParseError.expected (.symbol .rightBrace) token.kind token.span).skip

/-- Takes a token where an expression must start. -/
def ExprHole.start (token : Token) (hole : ExprHole) : Step :=
  match token.kind with
  | .ident => ([], .operator (.ident token.literal) hole)
  | .int =>
    match readInteger? token.literal.toList with
    | some value => ([], .operator (.int value) hole)
    | none => (ParseError.badInteger token.literal token.span).skip
  | .str => ([], .operator (.str token.literal) hole)
  | .keyword .trueWord => ([], .operator (.bool true) hole)
  | .keyword .falseWord => ([], .operator (.bool false) hole)
  | .keyword .ifWord => ([], .expect .leftParen (.operand (.condition hole)))
  | .keyword .fnWord => ([], .expect .leftParen (.firstParam hole))
  | .symbol .leftParen => ([], .operand (.group hole))
  | kind =>
    match UnaryOp.ofKind? kind with
    | some op => ([], .operand (.operand op hole))
    | none => (ParseError.noExpression kind token.span).skip

/-- Takes a token where a statement may start. -/
def StmtHole.start (token : Token) (hole : StmtHole) : Step :=
  match token.kind with
  | .keyword .letWord => ([], .letName hole)
  | .keyword .returnWord => ([], .operand (.retValue hole))
  | .symbol .leftBrace => ([], .statement (.block [] hole))
  | .symbol .rightBrace => hole.close?.getD (ExprHole.start token (.statement hole))
  | .eof => hole.finish token
  | _ => ExprHole.start token (.statement hole)

/-- Takes a token that is not the wanted one: it starts a new statement of the program. -/
def Token.refuse (token : Token) (wanted : Kind) : Step :=
  Step.after [.failed (.expected wanted token.kind token.span)] (StmtHole.program.start token)

/-- Takes the token behind a statement that may end with a semicolon. -/
def StmtHole.complete (token : Token) (stmt : Stmt) (hole : StmtHole) : Step :=
  let (outcomes, next) := hole.fill stmt
  if token.kind = .symbol .semicolon then (outcomes, .statement next)
  else Step.after outcomes (next.start token)

/-- Takes the token behind a complete expression: completes all operations that the expression is
an operand of, and then what these stand in. -/
def ExprHole.complete (token : Token) (value : Expr) : ExprHole → Step
  | .letValue name outer => outer.complete token (.letBe name value)
  | .retValue outer => outer.complete token (.ret value)
  | .statement outer => outer.complete token (.expr value)
  | .operand op outer => outer.complete token (.unary op value)
  | .right left op outer => outer.complete token (.binary left op value)
  | .group outer =>
    if token.kind = .symbol .rightParen then ([], .operator value outer)
    else token.refuse (.symbol .rightParen)
  | .condition outer =>
    if token.kind = .symbol .rightParen then
      ([], .expect .leftBrace (.statement (.consequence value [] outer)))
    else token.refuse (.symbol .rightParen)
  | .argument callee earlier outer =>
    if token.kind = .symbol .comma then ([], .operand (.argument callee (value :: earlier) outer))
    else if token.kind = .symbol .rightParen then
      ([], .operator (.call callee (value :: earlier).reverse) outer)
    else token.refuse (.symbol .rightParen)

/-- Takes the token behind a complete operand. A call binds tightest, so it applies to the
operand as it is; a binary operator applies to the operations that bind at least as tightly as
itself. -/
def ExprHole.extend (token : Token) (value : Expr) (hole : ExprHole) : Step :=
  match BinaryOp.ofKind? token.kind with
  | some op =>
    let (left, outer) := hole.settle op.power value
    ([], .operand (.right left op outer))
  | none =>
    if token.kind = .symbol .leftParen then ([], .firstArgument value hole)
    else hole.complete token value

/-- Takes one token. -/
def Reading.step (token : Token) : Reading → Step
  | .ended => ([], .ended)
  | .statement hole => hole.start token
  | .operand hole => hole.start token
  | .operator value hole => hole.extend token value
  | .firstArgument callee hole =>
    if token.kind = .symbol .rightParen then ([], .operator (.call callee []) hole)
    else ExprHole.start token (.argument callee [] hole)
  | .otherwise condition consequence hole =>
    if token.kind = .keyword .elseWord then
      ([], .expect .leftBrace (.statement (.alternative condition consequence [] hole)))
    else hole.extend token (.ifThen condition consequence)
  | .letName hole =>
    if token.kind = .ident then
      ([], .expect .assign (.operand (.letValue token.literal hole)))
    else token.refuse .ident
  | .firstParam hole =>
    if token.kind = .symbol .rightParen then
      ([], .expect .leftBrace (.statement (.body [] [] hole)))
    else if token.kind = .ident then ([], .paramEnd [token.literal] hole)
    else token.refuse .ident
  | .laterParam earlier hole =>
    if token.kind = .ident then ([], .paramEnd (token.literal :: earlier) hole)
    else token.refuse .ident
  | .paramEnd earlier hole =>
    if token.kind = .symbol .comma then ([], .laterParam earlier hole)
    else if token.kind = .symbol .rightParen then
      ([], .expect .leftBrace (.statement (.body earlier.reverse [] hole)))
    else token.refuse (.symbol .rightParen)
  | .expect symbol next =>
    if token.kind = .symbol symbol then ([], next) else token.refuse (.symbol symbol)

end Monkey
