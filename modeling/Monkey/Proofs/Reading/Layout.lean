import Monkey.Proofs.Reading.Feed

/-!
# Reading does not look at positions

Where a token stands in the source has no influence on what is read. Spans only get into errors. So
tokens without their places yield the same program, and the same errors without their places.
-/

namespace Monkey

/-- The token as if it stood at the start of the source. -/
def Token.unplaced (token : Token) : Token := { token with span := .origin }

/-- The token of a symbol, without a place. -/
def Symbol.token (symbol : Symbol) : Token := ⟨.symbol symbol, symbol.text, .origin⟩

/-- The token of a keyword, without a place. -/
def Keyword.token (keyword : Keyword) : Token := ⟨.keyword keyword, keyword.text, .origin⟩

/-- The error without its place. -/
def ParseError.unplaced : ParseError → ParseError
  | expected wanted got _ => expected wanted got .origin
  | noExpression got _ => noExpression got .origin
  | badInteger literal _ => badInteger literal .origin

/-- The outcome without its place. -/
def Outcome.unplaced : Outcome → Outcome
  | parsed stmt => parsed stmt
  | failed error => failed error.unplaced

/-- The outcomes without their places. -/
def Step.unplaced (step : Step) : Step := (step.1.map Outcome.unplaced, step.2)

@[simp]
theorem Token.kind_unplaced (token : Token) : token.unplaced.kind = token.kind := rfl

@[simp]
theorem Token.literal_unplaced (token : Token) : token.unplaced.literal = token.literal := rfl

@[simp]
theorem Token.map_unplaced_unplaced (tokens : List Token) :
    (tokens.map Token.unplaced).map Token.unplaced = tokens.map Token.unplaced :=
  List.map_map

@[simp]
theorem Step.unplaced_after (outcomes : List Outcome) (step : Step) :
    (step.after outcomes).unplaced = step.unplaced.after (outcomes.map Outcome.unplaced) := by
  simp [unplaced, after]

@[simp]
theorem Step.unplaced_silent (state : Reading) : Step.unplaced ([], state) = ([], state) := rfl

namespace Outcome

@[simp]
theorem program_map_unplaced (outcomes : List Outcome) :
    program (outcomes.map unplaced) = program outcomes := by
  induction outcomes with
  | nil => rfl
  | cons outcome rest ih => cases outcome <;> simp [unplaced, ih]

@[simp]
theorem errors_map_unplaced (outcomes : List Outcome) :
    errors (outcomes.map unplaced) = (errors outcomes).map ParseError.unplaced := by
  induction outcomes with
  | nil => rfl
  | cons outcome rest ih => cases outcome <;> simp [unplaced, ih]

end Outcome

theorem StmtHole.map_unplaced_fill (stmt : Stmt) (hole : StmtHole) :
    (hole.fill stmt).1.map Outcome.unplaced = (hole.fill stmt).1 := by
  cases hole <;> rfl

theorem StmtHole.unplaced_close? {hole : StmtHole} {step : Step} (closed : hole.close? = some step) :
    step.unplaced = step := by
  cases hole with
  | block earlier outer =>
      cases closed
      exact Prod.ext (map_unplaced_fill _ outer) rfl
  | program => cases closed
  | _ =>
      cases closed
      rfl

theorem ExprHole.start_unplaced (token : Token) (hole : ExprHole) :
    ExprHole.start token.unplaced hole = (ExprHole.start token hole).unplaced := by
  simp only [start, Token.kind_unplaced, Token.literal_unplaced]
  split <;> try rfl
  · split <;> rfl
  · split <;> rfl

theorem StmtHole.start_unplaced (token : Token) (hole : StmtHole) :
    hole.start token.unplaced = (hole.start token).unplaced := by
  simp only [start, Token.kind_unplaced, ExprHole.start_unplaced]
  split <;> try rfl
  · cases closed : hole.close? with
    | none => rfl
    | some step => exact (unplaced_close? closed).symm
  · cases hole <;> rfl

theorem Token.refuse_unplaced (token : Token) (wanted : Kind) :
    token.unplaced.refuse wanted = (token.refuse wanted).unplaced := by
  simp only [refuse, StmtHole.start_unplaced, Step.unplaced_after]
  rfl

theorem StmtHole.complete_unplaced (token : Token) (stmt : Stmt) (hole : StmtHole) :
    hole.complete token.unplaced stmt = (hole.complete token stmt).unplaced := by
  simp only [complete, Token.kind_unplaced, start_unplaced]
  split
  · simp [Step.unplaced, map_unplaced_fill]
  · simp [map_unplaced_fill]

theorem ExprHole.complete_unplaced (token : Token) (value : Expr) (hole : ExprHole) :
    hole.complete token.unplaced value = (hole.complete token value).unplaced := by
  fun_induction ExprHole.complete token value hole with
  | case1 | case2 | case3 => exact StmtHole.complete_unplaced token _ _
  | case4 _ _ _ ih | case5 _ _ _ _ ih => exact ih
  | case6 _ _ kind | case8 _ _ kind | case10 _ _ _ _ kind => simp [complete, kind]
  | case7 _ _ other | case9 _ _ other => simp [complete, other, Token.refuse_unplaced]
  | case11 _ _ _ _ noComma kind => simp [complete, kind]
  | case12 _ _ _ _ noComma other => simp [complete, noComma, other, Token.refuse_unplaced]

theorem ExprHole.extend_unplaced (token : Token) (value : Expr) (hole : ExprHole) :
    hole.extend token.unplaced value = (hole.extend token value).unplaced := by
  simp only [extend, Token.kind_unplaced, complete_unplaced]
  split
  · rfl
  · split <;> rfl

theorem Reading.step_unplaced (token : Token) (state : Reading) :
    state.step token.unplaced = (state.step token).unplaced := by
  cases state with
  | ended => rfl
  | statement hole => exact StmtHole.start_unplaced token hole
  | operand hole => exact ExprHole.start_unplaced token hole
  | operator value hole => exact ExprHole.extend_unplaced token value hole
  | _ =>
      simp only [step, Token.kind_unplaced, Token.literal_unplaced, ExprHole.start_unplaced,
        ExprHole.extend_unplaced, Token.refuse_unplaced]
      repeat' split
      all_goals rfl

theorem Reading.feed_unplaced (state : Reading) (tokens : List Token) :
    state.feed (tokens.map Token.unplaced) = (state.feed tokens).unplaced := by
  induction tokens generalizing state with
  | nil => rfl
  | cons token rest ih =>
      rw [List.map_cons, feed_cons, feed_cons, step_unplaced, Step.unplaced_after]
      exact congrArg (Step.after _) (ih _)

theorem outcomesOf_unplaced (tokens : List Token) :
    (outcomesOf (tokens.map Token.unplaced)).map Outcome.unplaced =
      (outcomesOf tokens).map Outcome.unplaced := by
  have fed : ∀ (tokens : List Token) (finish : Nat),
      (Reading.start.feed (tokens ++ [.eof finish])).1.map Outcome.unplaced =
        (Reading.start.feed (tokens.map Token.unplaced ++ [(Token.eof 0).unplaced])).1 := by
    intro tokens finish
    have whole := Reading.feed_unplaced .start (tokens ++ [.eof finish])
    rw [List.map_append] at whole
    exact (congrArg Prod.fst whole).symm
  rw [outcomesOf_eq_feed, outcomesOf_eq_feed, fed, fed, Token.map_unplaced_unplaced]

theorem parse_unplaced (tokens : List Token) :
    (parse (tokens.map Token.unplaced)).1 = (parse tokens).1 ∧
      (parse (tokens.map Token.unplaced)).2.map ParseError.unplaced =
        (parse tokens).2.map ParseError.unplaced := by
  have same := outcomesOf_unplaced tokens
  constructor
  · simpa [parse] using congrArg Outcome.program same
  · simpa [parse] using congrArg Outcome.errors same

/-- Whether tokens are read as a program without an error does not depend on their places. -/
theorem parse_unplaced_eq_iff (tokens : List Token) (program : Program) :
    parse (tokens.map Token.unplaced) = (program, []) ↔ parse tokens = (program, []) := by
  rcases parse_unplaced tokens with ⟨sameProgram, sameErrors⟩
  have noErrors : (parse (tokens.map Token.unplaced)).2 = [] ↔ (parse tokens).2 = [] := by
    simpa using congrArg (· = []) sameErrors
  rw [Prod.ext_iff, Prod.ext_iff]
  exact and_congr (by rw [sameProgram]) noErrors

end Monkey
