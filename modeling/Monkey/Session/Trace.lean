import Monkey.Evaluation.Basic
import Monkey.Reading.Parser

/-!
# Traces

A trace tells what reading and evaluating a source text do, line by line: first a line for each
outcome of reading, then one for each event of the evaluation that has a text.
-/

namespace Monkey

/-- The text of an outcome in a trace. -/
def Outcome.line : Outcome → String
  | parsed stmt => "TRACE parsed statement statement=" ++ stmt.text
  | failed error =>
    "DEBUG parse error error=" ++ error.message ++ " span=" ++ error.span.text

/-- Reads and evaluates a source text in a new environment; gives the result and the trace.
Statements that failed to parse are left out of the evaluation. -/
def trace (fuel : Nat) (source : String) : Option (Value × List String) :=
  let outcomes := outcomesOf (tokenize source)
  let (env, store) := Store.empty.newEnv
  ((Outcome.program outcomes).eval fuel env store).map fun (value, later) =>
    (value, outcomes.map Outcome.line ++ later.log.toList.filterMap Event.line?)

end Monkey
