import Monkey.Text.Alphabetic
import Monkey.Token.Kind

/-!
# Lexemes

A lexeme is the longest token text at the front of a source text, together with the kind it
belongs to. `Lexeme.cut` cuts one off; the characters of the lexeme followed by what is left are
the text that was cut, and a lexeme is never empty.
-/

namespace Monkey

/-- Whether a character may stand in a name or a keyword. -/
def isNameChar (char : Char) : Bool := char = '_' || isAlphabetic char

/-- A piece of source text that makes up one token. -/
structure Lexeme where
  /-- The kind of the token. -/
  kind : Kind
  /-- What the token says: the piece itself, or for a string what stands between the quotes. -/
  literal : List Char
  /-- All characters of the piece. -/
  source : List Char
deriving DecidableEq

namespace Lexeme

/-- A lexeme that says just what is written. -/
def plain (kind : Kind) (source : List Char) : Lexeme := ⟨kind, source, source⟩

/-- The kind of a word: a keyword if it spells one, else a name. -/
def wordKind (word : List Char) : Kind :=
  match Keyword.ofText? (String.ofList word) with
  | some keyword => .keyword keyword
  | none => .ident

/-- Cuts off a string whose opening quote has been taken. It ends at the next quote; without
one, the quote and all that follows it are no token. -/
def cutString (text : List Char) : Lexeme × List Char :=
  let content := text.takeWhile (· ≠ '"')
  match text.dropWhile (· ≠ '"') with
  | [] => (plain .illegal ('"' :: content), [])
  | quote :: rest => (⟨.str, content, '"' :: (content ++ [quote])⟩, rest)

/-- Cuts off the lexeme that starts with `char`, and gives what is left of the text behind it. -/
def cut (char : Char) (text : List Char) : Lexeme × List Char :=
  match Symbol.ofChar? char with
  | some symbol =>
    match symbol.withEquals?, text with
    | some longer, '=' :: rest => (plain (.symbol longer) [char, '='], rest)
    | _, _ => (plain (.symbol symbol) [char], text)
  | none =>
    if char = '"' then cutString text
    else if char.isDigit then
      (plain .int (char :: text.takeWhile Char.isDigit), text.dropWhile Char.isDigit)
    else if isNameChar char then
      let word := char :: text.takeWhile isNameChar
      (plain (wordKind word) word, text.dropWhile isNameChar)
    else (plain .illegal [char], text)

theorem source_append_cutString (text : List Char) :
    (cutString text).1.source ++ (cutString text).2 = '"' :: text := by
  have parts := @List.takeWhile_append_dropWhile _ (· ≠ '"') text
  rw [cutString]
  split
  · rename_i no_quote
    rw [no_quote] at parts
    simpa [plain] using parts
  · rename_i quote rest closed
    rw [closed] at parts
    simpa using parts

/-- A lexeme followed by what is left is the text that was cut. -/
theorem source_append_cut (char : Char) (text : List Char) :
    (cut char text).1.source ++ (cut char text).2 = char :: text := by
  rw [cut]
  split
  · split <;> simp [plain]
  · split
    · rename_i is_quote
      rw [is_quote]
      exact source_append_cutString text
    · split
      · simp [plain]
      · split <;> simp [plain]

/-- A lexeme is not empty, so cutting it off leaves less text. -/
theorem length_cut_lt (char : Char) (text : List Char) :
    (cut char text).2.length < text.length + 1 := by
  have parts := congrArg List.length (source_append_cut char text)
  have nonempty : 0 < (cut char text).1.source.length := by
    rw [cut]
    split
    · split <;> simp [plain]
    · split
      · rw [cutString]
        split <;> simp [plain]
      · split
        · simp [plain]
        · split <;> simp [plain]
  simp at parts
  omega

/-- The end of the source is no lexeme. -/
theorem kind_cut_ne_eof (char : Char) (text : List Char) : (cut char text).1.kind ≠ .eof := by
  rw [cut]
  split
  · split <;> simp [plain]
  · split
    · rw [cutString]
      split <;> simp [plain]
    · split
      · simp [plain]
      · split
        · simp only [plain, wordKind]
          split <;> simp
        · simp [plain]

end Lexeme

end Monkey
