import Monkey.Session.Basic

/-!
# The command line

The program runs an interactive session: it reads lines from standard input and prints what the
session reacts with, until the input or the session ends.
-/

namespace Monkey

/-- Reads the bytes up to and including the next line feed, or up to the end of the input. -/
partial def readLine (input : IO.FS.Stream) (earlier : ByteArray) : IO ByteArray := do
  let next ← input.read 1
  if next.isEmpty then return earlier
  else if next.toList = [10] then return earlier ++ next
  else readLine input (earlier ++ next)

/-- Prints what the session reacts with to each line of the input. -/
partial def serveSession (input output : IO.FS.Stream) (session : Session) : IO Unit := do
  let line ← readLine input .empty
  unless line.isEmpty do
    match session.react callLimit line.toList with
    | none => pure ()
    | some (.leave text) => output.putStr text
    | some (.proceed text later) =>
      output.putStr text
      output.flush
      serveSession input output later

end Monkey

def main : IO Unit := do
  let output ← IO.getStdout
  output.putStr Monkey.Session.banner
  output.flush
  Monkey.serveSession (← IO.getStdin) output .start
  output.flush
