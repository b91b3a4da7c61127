import Monkey.Evaluation.Basic
import Monkey.Reading.Parser
import Monkey.Text.Blank
import Monkey.Text.Line

/-!
# Sessions

A session evaluates one line after the other in one environment. `Session.runLine` gives the
text that a line produces: the value, or the errors of a line that cannot be read, which is then
not evaluated at all.

An interactive session reads its lines from a stream of bytes. It skips blank lines, ends at
`exit` or `quit` or at a line that is not valid UTF-8, and prints the output of every other
line. These tests look at the line without the white space at its ends, but the whole line is
run, line feed included.
-/

namespace Monkey

/-- How deep calls may nest in a session: deeper than any memory allows. -/
def callLimit : Nat := 1000000000

/-- An environment that stays from line to line, and the store it lives in. -/
structure Session where
  /-- The environment in which the lines are evaluated. -/
  env : Env
  /-- The store after the lines so far. -/
  store : Store

namespace Session

/-- A session in a new environment. -/
def start : Session := ⟨Store.empty.newEnv.1, Store.empty.newEnv.2⟩

/-- How the errors of a line are reported. -/
def complaint (errors : List ParseError) : String :=
  errors.foldl (fun text error => text ++ "\n\t" ++ error.message ++ " " ++ error.span.located)
    "Parser errors:"

/-- Runs a line, and gives the text it produces. -/
def runLine (fuel : Nat) (session : Session) (line : String) : Option (String × Session) :=
  match parseText line with
  | (program, []) =>
    (program.eval fuel session.env session.store).map fun (value, later) =>
      (value.code, { session with store := later })
  | (_, errors) => some (complaint errors, session)

/-- What a session does with a line of input. -/
inductive Reaction where
  /-- It prints a text and waits for the next line. -/
  | proceed (output : String) (later : Session)
  /-- It prints a text and ends. -/
  | leave (output : String)

/-- The words that end an interactive session. -/
def isFarewell (text : List Char) : Bool := text = "exit".toList || text = "quit".toList

/-- What is printed for a line that is not valid UTF-8. -/
def unreadable : String :=
  "Error: Io(Error \x7b kind: InvalidData, message: \"stream did not contain valid UTF-8\" \x7d)\n"

/-- Reacts to a line of input. -/
def react (fuel : Nat) (session : Session) (bytes : List UInt8) : Option Reaction :=
  match lineText? bytes with
  | none => some (.leave unreadable)
  | some line =>
    if isFarewell (trimmed line.toList) then some (.leave "")
    else if (trimmed line.toList).isEmpty then some (.proceed "" session)
    else
      (session.runLine fuel line).map fun (output, later) => .proceed (output ++ "\n") later

/-- All that a session prints for the given lines of input. -/
def transcript (fuel : Nat) (session : Session) : List (List UInt8) → Option String
  | [] => some ""
  | bytes :: rest =>
    match session.react fuel bytes with
    | none => none
    | some (.leave output) => some output
    | some (.proceed output later) => (later.transcript fuel rest).map (output ++ ·)

/-- What is printed before the first line of input. -/
def banner : String := "Monkey language v0.1.0\nType in commands, or \x60exit\x60 to leave\n"

/-- All that an interactive session prints for a stream of bytes. -/
def interact (fuel : Nat) (input : List UInt8) : Option String :=
  (start.transcript fuel (byteLines input)).map (banner ++ ·)

end Session

end Monkey
