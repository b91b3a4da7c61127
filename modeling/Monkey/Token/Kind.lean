/-!
# Kinds of tokens

A token is a name, an integer, a string, a symbol or a keyword; two further kinds stand for a
piece of text that is no token and for the end of the source. Symbols and keywords are spelled
in one way only, so `Symbol.text` and `Keyword.text` are their spellings; `Kind.text` is how a
kind is named in messages.
-/

namespace Monkey

/-- Operators and delimiters. -/
inductive Symbol where
  | assign | plus | minus | bang | star | slash
  | less | greater | equal | notEqual
  | comma | semicolon
  | leftParen | rightParen | leftBrace | rightBrace
deriving DecidableEq

namespace Symbol

/-- The spelling of a symbol. -/
def text : Symbol → String
  | assign => "="
  | plus => "+"
  | minus => "-"
  | bang => "!"
  | star => "*"
  | slash => "/"
  | less => "<"
  | greater => ">"
  | equal => "=="
  | notEqual => "!="
  | comma => ","
  | semicolon => ";"
  | leftParen => "("
  | rightParen => ")"
  | leftBrace => "\x7b"
  | rightBrace => "\x7d"

/-- The symbol that a character spells on its own. -/
def ofChar? : Char → Option Symbol
  | '=' => some assign
  | '+' => some plus
  | '-' => some minus
  | '!' => some bang
  | '*' => some star
  | '/' => some slash
  | '<' => some less
  | '>' => some greater
  | ',' => some comma
  | ';' => some semicolon
  | '(' => some leftParen
  | ')' => some rightParen
  | '\x7b' => some leftBrace
  | '\x7d' => some rightBrace
  | _ => none

/-- The symbol that a symbol becomes when an equals sign follows it at once. -/
def withEquals? : Symbol → Option Symbol
  | assign => some equal
  | bang => some notEqual
  | _ => none

end Symbol

/-- Words that are no names. -/
inductive Keyword where
  | fnWord | letWord | trueWord | falseWord | ifWord | elseWord | returnWord
deriving DecidableEq

namespace Keyword

/-- The spelling of a keyword. -/
def text : Keyword → String
  | fnWord => "fn"
  | letWord => "let"
  | trueWord => "true"
  | falseWord => "false"
  | ifWord => "if"
  | elseWord => "else"
  | returnWord => "return"

/-- How a keyword is named in messages. -/
def title : Keyword → String
  | fnWord => "FUNCTION"
  | letWord => "LET"
  | trueWord => "TRUE"
  | falseWord => "FALSE"
  | ifWord => "IF"
  | elseWord => "ELSE"
  | returnWord => "RETURN"

/-- All keywords. -/
def all : List Keyword :=
  [fnWord, letWord, trueWord, falseWord, ifWord, elseWord, returnWord]

/-- The keyword that a word spells, if it spells one. -/
def ofText? (word : String) : Option Keyword := all.find? fun keyword => keyword.text = word

end Keyword

/-- What a token is. -/
inductive Kind where
  /-- Text that is no token. -/
  | illegal
  /-- The end of the source. -/
  | eof
  /-- A name. -/
  | ident
  /-- A run of digits. -/
  | int
  /-- A text in quotes. -/
  | str
  /-- An operator or a delimiter. -/
  | symbol (sign : Symbol)
  /-- A keyword. -/
  | keyword (word : Keyword)
deriving DecidableEq

namespace Kind

/-- How a kind is named in messages. -/
def text : Kind → String
  | illegal => "ILLEGAL"
  | eof => "EOF"
  | ident => "IDENT"
  | int => "INT"
  | str => "STRING"
  | .symbol sign => sign.text
  | .keyword word => word.title

end Kind

end Monkey
