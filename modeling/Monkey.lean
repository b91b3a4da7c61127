import Monkey.Evaluation.Basic
import Monkey.Evaluation.Run
import Monkey.Main
import Monkey.Program.Basic
import Monkey.Program.Operator
import Monkey.Program.Printer
import Monkey.Proofs.Evaluation.Binding
import Monkey.Proofs.Evaluation.Context
import Monkey.Proofs.Evaluation.Contract
import Monkey.Proofs.Evaluation.Frame
import Monkey.Proofs.Evaluation.History
import Monkey.Proofs.Evaluation.Holdings
import Monkey.Proofs.Evaluation.Limit
import Monkey.Proofs.Evaluation.Literals
import Monkey.Proofs.Evaluation.Lookups
import Monkey.Proofs.Evaluation.Making
import Monkey.Proofs.Evaluation.Objects
import Monkey.Proofs.Evaluation.Operands
import Monkey.Proofs.Evaluation.Parts
import Monkey.Proofs.Evaluation.Policy
import Monkey.Proofs.Evaluation.Sequence
import Monkey.Proofs.Evaluation.Task
import Monkey.Proofs.Likeness.Evaluation
import Monkey.Proofs.Likeness.Store
import Monkey.Proofs.Likeness.Trees
import Monkey.Proofs.Likeness.Value
import Monkey.Proofs.Printing.RoundTrip
import Monkey.Proofs.Printing.Tokens
import Monkey.Proofs.Reading.Blame
import Monkey.Proofs.Reading.Boundary
import Monkey.Proofs.Reading.Completeness
import Monkey.Proofs.Reading.Completion
import Monkey.Proofs.Reading.Composition
import Monkey.Proofs.Reading.Correctness
import Monkey.Proofs.Reading.Course
import Monkey.Proofs.Reading.Ending
import Monkey.Proofs.Reading.Feed
import Monkey.Proofs.Reading.FirstError
import Monkey.Proofs.Reading.Grammar
import Monkey.Proofs.Reading.Joining
import Monkey.Proofs.Reading.Layout
import Monkey.Proofs.Reading.Names
import Monkey.Proofs.Reading.Numerals
import Monkey.Proofs.Reading.Recovery
import Monkey.Proofs.Reading.Respacing
import Monkey.Proofs.Reading.Soundness
import Monkey.Proofs.Reading.Wording
import Monkey.Proofs.Session.Arithmetic
import Monkey.Proofs.Session.Brackets
import Monkey.Proofs.Session.Carriers
import Monkey.Proofs.Session.Closed
import Monkey.Proofs.Session.Deletion
import Monkey.Proofs.Session.Depth
import Monkey.Proofs.Session.Echo
import Monkey.Proofs.Session.Faults
import Monkey.Proofs.Session.Flattening
import Monkey.Proofs.Session.Identity
import Monkey.Proofs.Session.Lines
import Monkey.Proofs.Session.Log
import Monkey.Proofs.Session.OneProgram
import Monkey.Proofs.Session.Quotes
import Monkey.Proofs.Session.Reach
import Monkey.Proofs.Session.Repetition
import Monkey.Proofs.Session.Transcript
import Monkey.Proofs.Session.Unused
import Monkey.Proofs.Store.Basic
import Monkey.Proofs.Store.Scoping
import Monkey.Proofs.Text.Lines
import Monkey.Proofs.Token.Joining
import Monkey.Proofs.Token.Munching
import Monkey.Proofs.Token.Pulling
import Monkey.Proofs.Token.Segments
import Monkey.Proofs.Token.Separation
import Monkey.Proofs.Token.Tiling
import Monkey.Reading.Basic
import Monkey.Reading.Error
import Monkey.Reading.Hole
import Monkey.Reading.Parser
import Monkey.Session.Basic
import Monkey.Session.Trace
import Monkey.Store.Basic
import Monkey.Store.Event
import Monkey.Store.Scope
import Monkey.Text.Alphabetic
import Monkey.Text.Blank
import Monkey.Text.Line
import Monkey.Text.Numeral
import Monkey.Text.Quoted
import Monkey.Text.Span
import Monkey.Token.Basic
import Monkey.Token.Kind
import Monkey.Token.Lexeme
import Monkey.Token.Stream
import Monkey.Value.Basic
import Monkey.Value.Builtin
import Monkey.Value.Fault
import Monkey.Value.Operation
import Monkey.Value.TypeName
