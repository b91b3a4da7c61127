import Monkey.Reading.Parser

/-!
# Feeding a reading

`Reading.run` stops where the program ends and keeps the tokens behind it. For proofs it is easier
to take all tokens: a reading that has ended takes them without effect. `Reading.feed` does that,
and what reading a list of tokens yields is what feeding it yields, with one more end of the
source behind it.
-/

namespace Monkey

namespace Step

@[simp]
theorem after_nil (step : Step) : step.after [] = step := rfl

@[simp]
theorem after_after (first second : List Outcome) (step : Step) :
    (step.after second).after first = step.after (first ++ second) := by
  simp [after]

@[simp]
theorem fst_after (outcomes : List Outcome) (step : Step) :
    (step.after outcomes).1 = outcomes ++ step.1 := rfl

@[simp]
theorem snd_after (outcomes : List Outcome) (step : Step) :
    (step.after outcomes).2 = step.2 := rfl

end Step

namespace Outcome

@[simp]
theorem program_nil : program [] = [] := rfl

@[simp]
theorem errors_nil : errors [] = [] := rfl

@[simp]
theorem program_parsed_cons (stmt : Stmt) (rest : List Outcome) :
    program (.parsed stmt :: rest) = stmt :: program rest := rfl

@[simp]
theorem errors_parsed_cons (stmt : Stmt) (rest : List Outcome) :
    errors (.parsed stmt :: rest) = errors rest := rfl

@[simp]
theorem program_failed_cons (error : ParseError) (rest : List Outcome) :
    program (.failed error :: rest) = program rest := rfl

@[simp]
theorem errors_failed_cons (error : ParseError) (rest : List Outcome) :
    errors (.failed error :: rest) = error :: errors rest := rfl

@[simp]
theorem program_append (first second : List Outcome) :
    program (first ++ second) = program first ++ program second :=
  List.filterMap_append

@[simp]
theorem errors_append (first second : List Outcome) :
    errors (first ++ second) = errors first ++ errors second :=
  List.filterMap_append

@[simp]
theorem program_map_parsed (stmts : List Stmt) : program (stmts.map .parsed) = stmts := by
  induction stmts with
  | nil => rfl
  | cons stmt rest ih => simp [ih]

@[simp]
theorem errors_map_parsed (stmts : List Stmt) : errors (stmts.map .parsed) = [] := by
  induction stmts with
  | nil => rfl
  | cons stmt rest ih => simp [ih]

end Outcome

theorem StmtHole.complete_of_semicolon {token : Token} (kind : token.kind = .symbol .semicolon)
    (stmt : Stmt) (hole : StmtHole) :
    hole.complete token stmt = ((hole.fill stmt).1, .statement (hole.fill stmt).2) := by
  simp [complete, kind]

theorem StmtHole.complete_of_ne {token : Token} (kind : token.kind ≠ .symbol .semicolon)
    (stmt : Stmt) (hole : StmtHole) :
    hole.complete token stmt = ((hole.fill stmt).2.start token).after (hole.fill stmt).1 := by
  simp [complete, kind]

namespace Reading

/-- Takes all of the tokens. -/
def feed (state : Reading) : List Token → Step
  | [] => ([], state)
  | token :: rest => ((state.step token).2.feed rest).after (state.step token).1

@[simp]
theorem feed_nil (state : Reading) : state.feed [] = ([], state) := rfl

theorem feed_cons (state : Reading) (token : Token) (rest : List Token) :
    state.feed (token :: rest) = ((state.step token).2.feed rest).after (state.step token).1 := rfl

@[simp]
theorem feed_singleton (state : Reading) (token : Token) :
    state.feed [token] = state.step token := by
  simp [feed, Step.after]

theorem feed_append (state : Reading) (first second : List Token) :
    state.feed (first ++ second) = ((state.feed first).2.feed second).after (state.feed first).1 := by
  induction first generalizing state with
  | nil => rfl
  | cons token rest ih => simp [feed_cons, ih]

/-- Feeding on from a state that is reached without an outcome. -/
theorem feed_append_of_eq {state middle : Reading} {first : List Token}
    (reached : state.feed first = ([], middle)) (second : List Token) :
    state.feed (first ++ second) = middle.feed second := by
  rw [feed_append, reached, Step.after_nil]

/-- Feeding on behind a token that is taken without an outcome. -/
theorem feed_cons_of_eq {state next : Reading} {token : Token}
    (taken : state.step token = ([], next)) (rest : List Token) :
    state.feed (token :: rest) = next.feed rest := by
  rw [feed_cons, taken, Step.after_nil]

@[simp]
theorem feed_ended (tokens : List Token) : ended.feed tokens = ([], ended) := by
  induction tokens with
  | nil => rfl
  | cons token rest ih => simp [feed_cons, step, ih]

theorem run_eq_feed (state : Reading) (tokens : List Token) :
    (state.run tokens).1 = (state.feed tokens).1 ∧
      (state.run tokens).2.1 = (state.feed tokens).2 := by
  induction tokens generalizing state with
  | nil => exact ⟨rfl, rfl⟩
  | cons token rest ih =>
      rw [run, feed_cons]
      split
      · rename_i outcomes stepped
        simp [stepped]
      · rename_i outcomes next _ stepped
        simp [stepped, ih next]

end Reading

/-- What reading yields is what feeding yields, the end of the source included. -/
theorem Parser.outcomes_eq_feed (parser : Parser) :
    parser.parseProgram.1 =
      (Reading.start.feed (parser.unread ++ [.eof parser.finish])).1 := by
  have fed := Reading.run_eq_feed Reading.start parser.unread
  rw [Parser.parseProgram, Reading.feed_append]
  split
  · rename_i outcomes rest stopped
    rw [stopped] at fed
    simp [← fed.1, ← fed.2, Reading.step]
  · rename_i outcomes state rest _ stopped
    rw [stopped] at fed
    simp [← fed.1, ← fed.2]

theorem outcomesOf_eq_feed (tokens : List Token) :
    outcomesOf tokens =
      (Reading.start.feed (tokens ++ [.eof (Parser.ofTokens tokens).finish])).1 :=
  (Parser.ofTokens tokens).outcomes_eq_feed

end Monkey
