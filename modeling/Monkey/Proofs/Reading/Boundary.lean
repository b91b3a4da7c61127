import Monkey.Proofs.Reading.Completeness
import Monkey.Proofs.Reading.Layout
import Monkey.Proofs.Reading.Soundness

/-!
# Boundaries between statements

A program that is read without an error holds no illegal token, and if its last token is a semicolon,
its last statement ends there. Whatever program follows is therefore read as if it stood alone.
-/

namespace Monkey

/-! ### The last token of an expression -/

/-- The last token is one that ends an expression. -/
def EndsExpr (tokens : List Token) : Prop :=
  ∃ token, tokens.getLast? = some token ∧ token.kind ∈
    [.ident, .int, .str, .keyword .trueWord, .keyword .falseWord, .symbol .rightParen,
      .symbol .rightBrace]

namespace EndsExpr

theorem of_kind {token : Token} {kind : Kind} (isKind : token.kind = kind)
    (ends : kind ∈ [.ident, .int, .str, .keyword .trueWord, .keyword .falseWord,
      .symbol .rightParen, .symbol .rightBrace]) : EndsExpr [token] :=
  ⟨token, rfl, isKind ▸ ends⟩

theorem prepend {tokens : List Token} (ends : EndsExpr tokens) (front : List Token) :
    EndsExpr (front ++ tokens) := by
  rcases ends with ⟨token, last, kind⟩
  exact ⟨token, by simp [last], kind⟩

theorem cons {tokens : List Token} (ends : EndsExpr tokens) (token : Token) :
    EndsExpr (token :: tokens) :=
  ends.prepend [token]

end EndsExpr

theorem Program.BlockSpelled.endsExpr {tokens : List Token} {body : List Stmt}
    (spelled : Program.BlockSpelled tokens body) : EndsExpr tokens := by
  cases spelled with
  | mk _ _ closingKind => exact ((EndsExpr.of_kind closingKind (by decide)).prepend _).cons _

theorem Expr.Spelled.endsExpr : ∀ {power : Nat} {tokens : List Token} {expr : Expr},
    Expr.Spelled power tokens expr → EndsExpr tokens
  | _, _, _, .climb tighter => tighter.endsExpr
  | _, _, _, .binary _ _ rightSpelled => (rightSpelled.endsExpr.cons _).prepend _
  | _, _, _, .unary _ operandSpelled => operandSpelled.endsExpr.cons _
  | _, _, _, .call _ _ _ closingKind =>
      (((EndsExpr.of_kind closingKind (by decide)).prepend _).cons _).prepend _
  | _, _, _, .ident nameKind => .of_kind nameKind (by decide)
  | _, _, _, .int literalKind _ => .of_kind literalKind (by decide)
  | _, _, _, .str literalKind => .of_kind literalKind (by decide)
  | _, _, _, .yes wordKind => .of_kind wordKind (by decide)
  | _, _, _, .no wordKind => .of_kind wordKind (by decide)
  | _, _, _, .group _ _ closingKind =>
      ((EndsExpr.of_kind closingKind (by decide)).prepend _).cons _
  | _, _, _, .ifThen _ _ _ _ branchSpelled =>
      (((branchSpelled.endsExpr.cons _).prepend _).cons _).cons _
  | _, _, _, .ifElse _ _ _ _ _ _ otherSpelled =>
      (((((otherSpelled.endsExpr.cons _).prepend _).cons _).prepend _).cons _).cons _
  | _, _, _, .fn _ _ _ _ bodySpelled =>
      (((bodySpelled.endsExpr.cons _).prepend _).cons _).cons _
termination_by structural _ _ _ spelled => spelled

theorem Stmt.Spelled.endsExpr {tokens : List Token} {stmt : Stmt}
    (spelled : Stmt.Spelled true tokens stmt) : EndsExpr tokens := by
  cases spelled with
  | letBe _ _ _ valueSpelled endSpelled =>
      cases endSpelled
      rw [List.append_nil]
      exact ((valueSpelled.endsExpr.cons _).cons _).cons _
  | ret _ valueSpelled endSpelled =>
      cases endSpelled
      rw [List.append_nil]
      exact valueSpelled.endsExpr.cons _
  | expr valueSpelled endSpelled =>
      cases endSpelled
      rw [List.append_nil]
      exact valueSpelled.endsExpr

/-! ### Programs that follow each other -/

/-- There are no tokens, or the last one is a semicolon. -/
def Closed (tokens : List Token) : Prop :=
  ∀ token ∈ tokens.getLast?, token.kind = .symbol .semicolon

theorem Program.Spelled.bare_eq_false {bare : Bool} {tokens : List Token} {program : Program}
    (spelled : Program.Spelled bare tokens program) (closed : Closed tokens) : bare = false := by
  cases spelled with
  | nil => rfl
  | snoc _ _ lastSpelled =>
      cases bare with
      | false => rfl
      | true =>
          rcases lastSpelled.endsExpr.prepend _ with ⟨token, last, ends⟩
          rw [closed token last] at ends
          exact absurd ends (by decide)

theorem Program.Spelled.nil_of_nil {bare : Bool} {tokens : List Token} {program : Program}
    (spelled : Program.Spelled bare tokens program) (empty : program = []) : tokens = [] := by
  cases spelled with
  | nil => rfl
  | snoc => simp at empty

theorem Stmt.Spelled.alone {bare : Bool} {tokens : List Token} {stmt : Stmt}
    (spelled : Stmt.Spelled bare tokens stmt) : Program.Spelled bare tokens [stmt] :=
  .snoc .nil (.unguarded _) spelled

theorem Program.Spelled.append {tokens : List Token} {first : Program}
    (firstSpelled : Program.Spelled false tokens first) :
    ∀ {bare : Bool} {more : List Token} {second : Program}, Program.Spelled bare more second →
      Program.Spelled bare (tokens ++ more) (first ++ second)
  | _, _, _, .nil => by simpa using firstSpelled
  | _, _, _, .snoc earlier apart lastSpelled => by
      have whole := Program.Spelled.snoc (firstSpelled.append earlier) apart lastSpelled
      simpa using whole
termination_by structural _ _ _ spelled => spelled

/-! ### Illegal tokens -/

theorem ExprHole.errors_start_illegal {token : Token} (kind : token.kind = .illegal)
    (hole : ExprHole) : Outcome.errors (ExprHole.start token hole).1 ≠ [] := by
  simp [ExprHole.start, kind, UnaryOp.ofKind?, ParseError.skip]

theorem StmtHole.errors_start_illegal {token : Token} (kind : token.kind = .illegal)
    (hole : StmtHole) : Outcome.errors (hole.start token).1 ≠ [] := by
  simpa [StmtHole.start, kind] using ExprHole.errors_start_illegal kind (.statement hole)

theorem ExprHole.errors_complete_illegal {token : Token} (kind : token.kind = .illegal)
    (value : Expr) (hole : ExprHole) : Outcome.errors (hole.complete token value).1 ≠ [] := by
  have finished : ∀ (stmt : Stmt) (outer : StmtHole),
      Outcome.errors (outer.complete token stmt).1 ≠ [] := by
    intro stmt outer clean
    rw [StmtHole.complete_of_ne (by simp [kind])] at clean
    simp only [Step.fst_after, Outcome.errors_append, List.append_eq_nil_iff] at clean
    exact StmtHole.errors_start_illegal kind _ clean.2
  fun_induction ExprHole.complete token value hole with
  | case1 | case2 | case3 => exact finished _ _
  | case4 _ _ _ ih | case5 _ _ _ _ ih => exact ih
  | case6 _ _ other | case8 _ _ other | case11 _ _ _ _ _ other | case10 _ _ _ _ other =>
      simp [kind] at other
  | case7 | case9 | case12 => exact Token.errors_refuse _ _

/-- An illegal token is an error wherever it stands. -/
theorem Reading.errors_step_illegal {token : Token} (kind : token.kind = .illegal)
    {state : Reading} (going : state ≠ .ended) : Outcome.errors (state.step token).1 ≠ [] := by
  have extended : ∀ (value : Expr) (hole : ExprHole),
      Outcome.errors (hole.extend token value).1 ≠ [] := by
    intro value hole
    simpa [ExprHole.extend, kind, BinaryOp.ofKind?] using
      ExprHole.errors_complete_illegal kind value hole
  cases state with
  | ended => exact absurd rfl going
  | statement hole => exact StmtHole.errors_start_illegal kind hole
  | operand hole => exact ExprHole.errors_start_illegal kind hole
  | operator value hole => exact extended value hole
  | firstArgument callee hole =>
      simpa [Reading.step, kind] using ExprHole.errors_start_illegal kind _
  | otherwise condition consequence hole => simpa [Reading.step, kind] using extended _ hole
  | _ => simpa [Reading.step, kind] using Token.errors_refuse _ _

theorem Reading.Spelled.ne_ended {state : Reading} {tokens : List Token} {program : Program}
    (spelled : state.Spelled tokens program) (noEnd : ∀ token ∈ tokens, token.kind ≠ .eof) :
    state ≠ .ended := by
  rintro rfl
  cases spelled with
  | ended _ finishKind => exact noEnd _ (by simp) finishKind

/-- What is read without an error holds no illegal token. -/
theorem Reading.legal_of_feed {tokens more : List Token}
    (noEnd : ∀ token ∈ tokens, token.kind ≠ .eof)
    (clean : Outcome.errors (Reading.start.feed (tokens ++ more)).1 = []) :
    ∀ token ∈ tokens, token.kind ≠ .illegal := by
  intro token member kind
  rcases List.append_of_mem member with ⟨before, after, rfl⟩
  have split : before ++ token :: after ++ more = before ++ token :: (after ++ more) := by simp
  rw [split, Reading.feed_append, Reading.feed_cons] at clean
  simp only [Step.fst_after, Outcome.errors_append, List.append_eq_nil_iff] at clean
  have going := (Reading.Spelled.start.feed before clean.1).ne_ended
    (fun other earlier => noEnd other (by simpa using .inl earlier))
  exact Reading.errors_step_illegal kind going clean.2.1

end Monkey
