import Monkey.Program.Basic
import Monkey.Text.Numeral
import Monkey.Text.Quoted

/-!
# The text of programs

A tree is written with every operator in parentheses, so that the text shows the grouping.
Statements follow each other without a separator and bodies have no braces. `leading` is the
token that a tree is known by: its first token, or for an operator or a call the token of the
operation.
-/

namespace Monkey

/-- Texts with a comma and a space between any two of them. -/
def commaSeparated : List String → String
  | [] => ""
  | [text] => text
  | text :: rest => text ++ ", " ++ commaSeparated rest

/-- The text of a truth value. -/
def writeBool (value : Bool) : String := if value then "true" else "false"

mutual

/-- The text of an expression. -/
def Expr.text : Expr → String
  | .ident name => name
  | .int value => writeInteger value
  | .bool value => writeBool value
  | .str text => quoted text
  | .unary op operand => "(" ++ op.text ++ operand.text ++ ")"
  | .binary left op right => "(" ++ left.text ++ " " ++ op.text ++ " " ++ right.text ++ ")"
  | .ifThen condition consequence => "if " ++ condition.text ++ " " ++ Program.text consequence
  | .ifElse condition consequence alternative =>
    "if " ++ condition.text ++ " " ++ Program.text consequence ++ " else " ++
      Program.text alternative
  | .fn params body => "fn(" ++ commaSeparated params ++ ") " ++ Program.text body
  | .call callee args => callee.text ++ "(" ++ commaSeparated (Expr.texts args) ++ ")"

/-- The texts of several expressions. -/
def Expr.texts : List Expr → List String
  | [] => []
  | expr :: rest => expr.text :: Expr.texts rest

/-- The text of a statement. -/
def Stmt.text : Stmt → String
  | .letBe name value => "let " ++ name ++ " = " ++ value.text ++ ";"
  | .ret value => "return " ++ value.text ++ ";"
  | .expr value => value.text
  | .block body => Program.text body

/-- The text of a program. -/
def Program.text : List Stmt → String
  | [] => ""
  | stmt :: rest => stmt.text ++ Program.text rest

end

/-- The token that an expression is known by. -/
def Expr.leading : Expr → String
  | .ident name => name
  | .int value => writeInteger value
  | .bool value => writeBool value
  | .str text => text
  | .unary op _ => op.text
  | .binary _ op _ => op.text
  | .ifThen _ _ | .ifElse _ _ _ => Keyword.ifWord.text
  | .fn _ _ => Keyword.fnWord.text
  | .call _ _ => Symbol.leftParen.text

/-- The token that a statement is known by. -/
def Stmt.leading : Stmt → String
  | .letBe _ _ => Keyword.letWord.text
  | .ret _ => Keyword.returnWord.text
  | .expr value => value.leading
  | .block _ => Symbol.leftBrace.text

/-- The token that a program is known by: that of its first statement. -/
def Program.leading : Program → String
  | [] => ""
  | stmt :: _ => stmt.leading

end Monkey
