import Monkey.Proofs.Session.Lines
import Monkey.Proofs.Text.Lines

/-!
# The text of an interactive session

Line after line of the input is run, until one of them ends the session. What is printed are the
outputs of these lines, and a last text if a line cannot be read; how the input goes on behind the
line that ends the session does not matter.
-/

namespace Monkey

namespace Session

/-! ### Lines that are run, and lines that end a session -/

/-- The session does not end at this line of the input. -/
def GoesOn (line : List UInt8) : Prop :=
  ∃ text, lineText? line = some text ∧ ¬ Says "exit" text ∧ ¬ Says "quit" text

/-- The text of a line, unless that is blank. -/
def spoken? (line : List UInt8) : Option String :=
  (lineText? line).filter fun text => !text.toList.all isBlank

/-- Where the lines of a session end, and what is then printed. -/
inductive Parting : List (List UInt8) → String → Prop where
  | noMore : Parting [] ""
  | unreadable {line : List UInt8} {rest : List (List UInt8)} (unread : lineText? line = none) :
      Parting (line :: rest) unreadable
  | farewell {line : List UInt8} {rest : List (List UInt8)} {text : String}
      (reads : lineText? line = some text) (bids : Says "exit" text ∨ Says "quit" text) :
      Parting (line :: rest) ""

theorem isFarewell_trimmed_iff {text : String} :
    isFarewell (trimmed text.toList) = true ↔ Says "exit" text ∨ Says "quit" text := by
  have exit : trimmed text.toList = "exit".toList ↔ Says "exit" text :=
    trimmed_eq_iff (by decide) (by decide) (by decide)
  have quit : trimmed text.toList = "quit".toList ↔ Says "quit" text :=
    trimmed_eq_iff (by decide) (by decide) (by decide)
  rw [isFarewell, Bool.or_eq_true, decide_eq_true_iff, decide_eq_true_iff, exit, quit]

variable {session : Session} {fuel : Nat} {line : List UInt8} {lines rest : List (List UInt8)}
  {text : String}

theorem Parting.append {others : List (List UInt8)} (nonempty : lines ≠ [])
    (parting : Parting lines text) : Parting (lines ++ others) text := by
  cases parting with
  | noMore => exact absurd rfl nonempty
  | unreadable unread => exact .unreadable unread
  | farewell reads bids => exact .farewell reads bids

theorem Parting.transcript (parting : Parting lines text) :
    session.transcript fuel lines = some text := by
  cases parting with
  | noMore => rfl
  | unreadable unread => simp only [Session.transcript, react, unread]
  | farewell reads bids =>
      simp only [Session.transcript, react, reads, isFarewell_trimmed_iff.mpr bids, if_true]

/-- What the session prints for the lines: the outputs of those in front of the line that ends it,
unless they are blank, each with a line feed behind it, and a last text. -/
def Transcribes (session : Session) (lines : List (List UInt8)) (text : String) : Prop :=
  ∃ (front rest : List (List UInt8)) (entries : List (String × String)) (last : Session)
    (parting : String),
    lines = front ++ rest ∧ (∀ line ∈ front, GoesOn line) ∧ Parting rest parting ∧
      entries.map Prod.fst = front.filterMap spoken? ∧ session.Runs entries last ∧
      text = String.join (entries.map fun entry => entry.2 ++ "\n") ++ parting

theorem Transcribes.blank (goesOn : GoesOn line) (blank : spoken? line = none)
    (later : session.Transcribes rest text) : session.Transcribes (line :: rest) text := by
  rcases later with ⟨front, back, entries, last, parting, rfl, goOn, ends, spoken, runs, rfl⟩
  refine ⟨line :: front, back, entries, last, parting, rfl, ?_, ends, ?_, runs, rfl⟩
  · simpa using ⟨goesOn, goOn⟩
  · rw [List.filterMap_cons_none blank, spoken]

theorem Transcribes.spoken {output word : String} {later : Session} (goesOn : GoesOn line)
    (spoken : spoken? line = some word) (ran : session.runLine fuel word = some (output, later))
    (others : later.Transcribes rest text) :
    session.Transcribes (line :: rest) (output ++ "\n" ++ text) := by
  rcases others with ⟨front, back, entries, last, parting, rfl, goOn, ends, words, runs, rfl⟩
  refine ⟨line :: front, back, (word, output) :: entries, last, parting, rfl, ?_, ends, ?_,
    .cons ran runs, ?_⟩
  · simpa using ⟨goesOn, goOn⟩
  · rw [List.filterMap_cons_some spoken, List.map_cons, words]
  · simp only [List.map_cons, String.join_cons, String.append_assoc]

/-- The bytes are whole lines, one of which ends the session. -/
def Closes (input : List UInt8) : Prop :=
  input.getLast? = some 10 ∧ ∃ lines, LinesOf input lines ∧ ∃ line ∈ lines, ¬ GoesOn line

end Session

end Monkey
