import Monkey.Proofs.Reading.Course
import Monkey.Proofs.Reading.Joining

/-!
# Completions

Whatever has been read without an error can be completed. `Reading.closing` gives tokens that do so:
they close the holes around the place where reading is, one after the other, from the inside out.
-/

namespace Monkey

/-- A name, without a place. -/
def Token.someName : Token := ⟨.ident, "x", .origin⟩

mutual

/-- Tokens that close all holes around a place where statements are read. -/
def StmtHole.closing : StmtHole → List Token
  | .program => []
  | .block _ outer => Symbol.rightBrace.token :: outer.closing
  | .consequence _ _ outer | .alternative _ _ _ outer | .body _ _ outer =>
    Symbol.rightBrace.token :: outer.closing

/-- Tokens that close all holes around an expression that is complete. -/
def ExprHole.closing : ExprHole → List Token
  | .letValue _ outer | .retValue outer | .statement outer =>
    Symbol.semicolon.token :: outer.closing
  | .operand _ outer | .right _ _ outer => outer.closing
  | .group outer | .argument _ _ outer => Symbol.rightParen.token :: outer.closing
  | .condition outer =>
    Symbol.rightParen.token :: Symbol.leftBrace.token :: Symbol.rightBrace.token :: outer.closing

end

/-- Tokens behind a list of parameters: they give the function an empty body. -/
def ExprHole.closingParams (hole : ExprHole) : List Token :=
  Symbol.rightParen.token :: Symbol.leftBrace.token :: Symbol.rightBrace.token :: hole.closing

/-- Tokens that complete what has been read. -/
def Reading.closing : Reading → List Token
  | .ended => []
  | .statement hole => hole.closing
  | .operand hole => .someName :: hole.closing
  | .operator _ hole | .otherwise _ _ hole => hole.closing
  | .firstArgument _ hole => Symbol.rightParen.token :: hole.closing
  | .letName hole =>
    .someName :: Symbol.assign.token :: .someName :: Symbol.semicolon.token :: hole.closing
  | .firstParam hole | .paramEnd _ hole => hole.closingParams
  | .laterParam _ hole => .someName :: hole.closingParams
  | .expect symbol next => symbol.token :: next.closing

/-- The step goes on without an error, and what completes it is as given. -/
def Step.Closes (closing : List Token) (step : Step) : Prop :=
  Outcome.errors step.1 = [] ∧ step.2.closing = closing

theorem StmtHole.closing_fill (stmt : Stmt) (hole : StmtHole) :
    (hole.fill stmt).2.closing = hole.closing := by
  cases hole <;> simp [StmtHole.fill, StmtHole.closing]

theorem StmtHole.errors_fill (stmt : Stmt) (hole : StmtHole) :
    Outcome.errors (hole.fill stmt).1 = [] := by
  cases hole <;> simp [StmtHole.fill]

theorem StmtHole.closes_start {hole : StmtHole} {token : Token} {rest : List Token}
    (closing : hole.closing = token :: rest) : (hole.start token).Closes rest := by
  cases hole with
  | program => simp [StmtHole.closing] at closing
  | block earlier outer =>
      simp only [StmtHole.closing, List.cons.injEq] at closing
      rcases closing with ⟨rfl, rfl⟩
      constructor
      · exact outer.errors_fill (.block earlier.reverse)
      · exact outer.closing_fill (.block earlier.reverse)
  | consequence | alternative | body =>
      simp only [StmtHole.closing, List.cons.injEq] at closing
      rcases closing with ⟨rfl, rfl⟩
      exact ⟨rfl, rfl⟩

theorem StmtHole.closes_complete {hole : StmtHole} (stmt : Stmt) :
    (hole.complete Symbol.semicolon.token stmt).Closes hole.closing := by
  rw [StmtHole.complete_of_semicolon rfl]
  exact ⟨hole.errors_fill stmt, hole.closing_fill stmt⟩

/-- A token that completes an expression neither goes on with it nor starts a second branch. -/
theorem ExprHole.closing_breaks : ∀ {hole : ExprHole} {token : Token} {rest : List Token},
    hole.closing = token :: rest →
      token.kind = .symbol .semicolon ∨ token.kind = .symbol .rightParen
  | .letValue _ _, _, _, closing | .retValue _, _, _, closing | .statement _, _, _, closing => by
      simp only [ExprHole.closing, List.cons.injEq] at closing
      exact .inl (closing.1 ▸ rfl)
  | .operand _ outer, _, _, closing | .right _ _ outer, _, _, closing =>
      outer.closing_breaks closing
  | .group _, _, _, closing | .condition _, _, _, closing | .argument _ _ _, _, _, closing => by
      simp only [ExprHole.closing, List.cons.injEq] at closing
      exact .inr (closing.1 ▸ rfl)
termination_by structural hole => hole

theorem ExprHole.closing_ne_nil : ∀ hole : ExprHole, hole.closing ≠ []
  | .letValue _ _ | .retValue _ | .statement _ => by simp [ExprHole.closing]
  | .operand _ outer | .right _ _ outer => outer.closing_ne_nil
  | .group _ | .condition _ | .argument _ _ _ => by simp [ExprHole.closing]
termination_by structural hole => hole

theorem ExprHole.closes_complete {hole : ExprHole} (value : Expr) {token : Token}
    {rest : List Token} (closing : hole.closing = token :: rest) :
    (hole.complete token value).Closes rest := by
  fun_induction ExprHole.complete token value hole with
  | case1 | case2 | case3 =>
      simp only [ExprHole.closing, List.cons.injEq] at closing
      rcases closing with ⟨rfl, rfl⟩
      exact StmtHole.closes_complete _
  | case4 value op outer ih | case5 value left op outer ih => exact ih closing
  | case6 | case8 | case11 =>
      simp only [ExprHole.closing, List.cons.injEq] at closing
      rcases closing with ⟨rfl, rfl⟩
      exact ⟨rfl, rfl⟩
  | case7 _ _ other | case9 _ _ other | case12 _ _ _ _ _ other =>
      simp only [ExprHole.closing, List.cons.injEq] at closing
      exact absurd (closing.1 ▸ rfl) other
  | case10 _ _ _ _ comma =>
      simp only [ExprHole.closing, List.cons.injEq] at closing
      rw [← closing.1] at comma
      cases comma

theorem ExprHole.closes_extend {hole : ExprHole} (value : Expr) {token : Token}
    {rest : List Token} (closing : hole.closing = token :: rest) :
    (hole.extend token value).Closes rest := by
  have completes : hole.extend token value = hole.complete token value := by
    rcases ExprHole.closing_breaks closing with kind | kind <;>
      simp [ExprHole.extend, kind, BinaryOp.ofKind?]
  rw [completes]
  exact ExprHole.closes_complete value closing

/-- Each token of a completion leaves the rest of it as the completion. -/
theorem Reading.closes_step {state : Reading} {token : Token} {rest : List Token}
    (closing : state.closing = token :: rest) : (state.step token).Closes rest := by
  cases state with
  | ended => simp [Reading.closing] at closing
  | statement hole => exact StmtHole.closes_start closing
  | operator value hole => exact ExprHole.closes_extend value closing
  | otherwise condition consequence hole =>
      have notElse : token.kind ≠ .keyword .elseWord := by
        rcases ExprHole.closing_breaks closing with kind | kind <;> simp [kind]
      rw [Reading.step, if_neg notElse]
      exact ExprHole.closes_extend _ closing
  | expect symbol next =>
      simp only [Reading.closing, List.cons.injEq] at closing
      rcases closing with ⟨rfl, rfl⟩
      simp [Reading.step, Symbol.token, Step.Closes]
  | operand | firstArgument | letName | firstParam | laterParam | paramEnd =>
      simp only [Reading.closing, ExprHole.closingParams, List.cons.injEq] at closing
      rcases closing with ⟨rfl, rfl⟩
      exact ⟨rfl, rfl⟩

/-- Whatever has been read can be completed. -/
theorem Reading.errors_feed_closing {finish : Token} (finishKind : finish.kind = .eof)
    (state : Reading) :
    Outcome.errors (state.feed (state.closing ++ [finish])).1 = [] := by
  induction closing : state.closing generalizing state with
  | nil =>
      rw [List.nil_append, Reading.feed_singleton]
      cases state with
      | ended => rfl
      | statement hole =>
          cases hole with
          | program =>
              change Outcome.errors (Reading.start.step finish).1 = []
              rw [Reading.step_start_end finishKind]
              rfl
          | _ => simp [Reading.closing, StmtHole.closing] at closing
      | operator _ hole | otherwise _ _ hole => exact absurd closing hole.closing_ne_nil
      | _ => simp [Reading.closing, ExprHole.closingParams] at closing
  | cons token rest ih =>
      rcases Reading.closes_step closing with ⟨clean, closingNext⟩
      rw [List.cons_append, Reading.feed_cons, Step.fst_after, Outcome.errors_append, clean,
        List.nil_append]
      exact ih _ closingNext

end Monkey
