import Monkey.Proofs.Reading.Soundness

/-!
# What a token can do

Wherever reading is, a token does one of five things. It goes on with what has been read; it ends a
statement of the program; it stands behind one; it is refused, and read as the start of a statement
instead; or it is an error that is skipped. So there is at most one error to a token where no
statement has just been completed, the error blames that token, and reading starts afresh behind
each statement and behind each error.
-/

namespace Monkey

/-- The token is the one that the error speaks of. -/
def ParseError.Blames (error : ParseError) (token : Token) : Prop :=
  match error with
  | .expected _ got span | .noExpression got span => token.kind = got ∧ token.span = span
  | .badInteger literal span =>
    token.kind = .int ∧ token.literal = literal ∧ token.span = span

theorem ParseError.Blames.span_eq {error : ParseError} {token : Token} (blames : error.Blames token) :
    token.span = error.span := by
  cases error with
  | expected | noExpression => exact blames.2
  | badInteger => exact blames.2.2

/-- The token that such an error blames is not read again: no statement starts with it. -/
def ParseError.isSkipped : ParseError → Bool
  | expected _ _ _ => false
  | noExpression _ _ | badInteger _ _ => true

/-- What a token can do where `take` says what is done with tokens. -/
inductive Course (take : Token → Step) (token : Token) : Prop where
  | silent (taken : (take token).1 = [])
  | ends (stmt : Stmt) (taken : take token = ([.parsed stmt], .start))
  /-- The statement is complete without the token: the end of the source could have come as well. -/
  | follows (stmt : Stmt) (taken : take token = (Reading.start.step token).after [.parsed stmt])
      (complete : ∀ finish : Token, finish.kind = .eof → take finish = ([.parsed stmt], .ended))
  | refused (wanted : Kind) (taken : take token = token.refuse wanted)
  | skipped (error : ParseError) (blames : error.Blames token)
      (skips : error.isSkipped = true ∨ token.kind = .eof) (taken : take token = error.skip)

/-- Only what is done with this token and with ends of the source matters. -/
theorem Course.congr {take other : Token → Step} {token : Token}
    (same : ∀ each : Token, each = token ∨ each.kind = .eof → other each = take each)
    (course : Course take token) : Course other token := by
  have sameToken := same token (.inl rfl)
  cases course with
  | silent taken => exact .silent (sameToken ▸ taken)
  | ends stmt taken => exact .ends stmt (sameToken.trans taken)
  | follows stmt taken complete =>
      refine .follows stmt (sameToken.trans taken) ?_
      intro finish finishKind
      rw [same finish (.inr finishKind), complete finish finishKind]
  | refused wanted taken => exact .refused wanted (sameToken.trans taken)
  | skipped error blames skips taken => exact .skipped error blames skips (sameToken.trans taken)

/-! ### The courses of a step -/

theorem ExprHole.start_cases (token : Token) (hole : ExprHole) :
    (∃ next, ExprHole.start token hole = ([], next)) ∨
      ∃ error : ParseError, error.Blames token ∧ error.isSkipped = true ∧
        ExprHole.start token hole = error.skip := by
  unfold ExprHole.start
  split
  · exact .inl ⟨_, rfl⟩
  · rename_i kind
    split
    · exact .inl ⟨_, rfl⟩
    · exact .inr ⟨.badInteger token.literal token.span, ⟨kind, rfl, rfl⟩, rfl, rfl⟩
  · exact .inl ⟨_, rfl⟩
  · exact .inl ⟨_, rfl⟩
  · exact .inl ⟨_, rfl⟩
  · exact .inl ⟨_, rfl⟩
  · exact .inl ⟨_, rfl⟩
  · exact .inl ⟨_, rfl⟩
  · split
    · exact .inl ⟨_, rfl⟩
    · exact .inr ⟨.noExpression token.kind token.span, ⟨rfl, rfl⟩, rfl, rfl⟩

theorem ExprHole.course_start (token : Token) (hole : ExprHole) :
    Course (fun each => ExprHole.start each hole) token := by
  rcases ExprHole.start_cases token hole with ⟨next, taken⟩ | ⟨error, blames, skips, taken⟩
  · exact .silent (by rw [taken])
  · exact .skipped error blames (.inl skips) taken

/-- In front of a statement of the program there is nothing to end or to refuse. -/
theorem Reading.start_cases (token : Token) :
    (∃ next, Reading.start.step token = ([], next)) ∨
      ∃ error : ParseError, error.Blames token ∧ error.isSkipped = true ∧
        Reading.start.step token = error.skip := by
  change (∃ next, StmtHole.program.start token = ([], next)) ∨
    ∃ error : ParseError, error.Blames token ∧ error.isSkipped = true ∧
      StmtHole.program.start token = error.skip
  unfold StmtHole.start
  split
  · exact .inl ⟨_, rfl⟩
  · exact .inl ⟨_, rfl⟩
  · exact .inl ⟨_, rfl⟩
  · exact ExprHole.start_cases token _
  · exact .inl ⟨_, rfl⟩
  · exact ExprHole.start_cases token _

/-- Only a statement of the program itself is given away. -/
theorem StmtHole.fill_cases (stmt : Stmt) (hole : StmtHole) :
    hole = .program ∨ (hole.fill stmt).1 = [] := by
  cases hole with
  | program => exact .inl rfl
  | _ => exact .inr rfl

theorem StmtHole.course_fill {take : Token → Step} {token : Token} {stmt : Stmt} {hole : StmtHole}
    (taken : take token = ((hole.fill stmt).1, .statement (hole.fill stmt).2)) :
    Course take token := by
  cases hole with
  | program => exact .ends stmt taken
  | _ => exact .silent (by rw [taken]; rfl)

theorem StmtHole.course_close {take : Token → Step} {token : Token} {hole : StmtHole} {step : Step}
    (closes : hole.close? = some step) (taken : take token = step) : Course take token := by
  subst taken
  cases hole with
  | program => simp [StmtHole.close?] at closes
  | block earlier outer =>
      simp only [StmtHole.close?, Option.some.injEq] at closes
      exact StmtHole.course_fill closes.symm
  | _ =>
      simp only [StmtHole.close?, Option.some.injEq] at closes
      exact .silent (by rw [← closes])

theorem StmtHole.course_start (token : Token) (hole : StmtHole) :
    Course (fun each => hole.start each) token := by
  -- Where an expression starts, the end of the source would be taken in another way.
  have expression : hole.start token = ExprHole.start token (.statement hole) →
      Course (fun each => hole.start each) token := by
    intro same
    rcases ExprHole.start_cases token (.statement hole) with
      ⟨next, taken⟩ | ⟨error, blames, skips, taken⟩
    · exact .silent (by rw [same, taken])
    · exact .skipped error blames (.inl skips) (same.trans taken)
  cases kind : token.kind with
  | keyword word =>
      cases word with
      | letWord => exact .silent (by simp [StmtHole.start, kind])
      | returnWord => exact .silent (by simp [StmtHole.start, kind])
      | _ => exact expression (by simp [StmtHole.start, kind])
  | symbol sign =>
      cases sign with
      | leftBrace => exact .silent (by simp [StmtHole.start, kind])
      | rightBrace =>
          cases closes : hole.close? with
          | none => exact expression (by simp [StmtHole.start, kind, closes])
          | some step =>
              exact StmtHole.course_close closes (by simp [StmtHole.start, kind, closes])
      | _ => exact expression (by simp [StmtHole.start, kind])
  | eof =>
      cases hole with
      | program => exact .silent (by simp [StmtHole.start, StmtHole.finish, kind])
      | _ =>
          exact .skipped (.expected (.symbol .rightBrace) token.kind token.span) ⟨rfl, rfl⟩
            (.inr kind) (by simp [StmtHole.start, StmtHole.finish, kind])
  | _ => exact expression (by simp [StmtHole.start, kind])

theorem StmtHole.course_complete (token : Token) (stmt : Stmt) (hole : StmtHole) :
    Course (fun each => hole.complete each stmt) token := by
  by_cases kind : token.kind = .symbol .semicolon
  · exact StmtHole.course_fill (StmtHole.complete_of_semicolon kind stmt hole)
  · have notEnd : ∀ each : Token, each = token ∨ each.kind = .eof →
        each.kind ≠ .symbol .semicolon := by
      rintro each (rfl | isEnd)
      · exact kind
      · simp [isEnd]
    rcases hole.fill_cases stmt with rfl | taken
    · refine .follows stmt (StmtHole.complete_of_ne kind stmt .program) ?_
      intro finish finishKind
      rw [StmtHole.complete_of_ne (notEnd finish (.inr finishKind))]
      simp [StmtHole.start, StmtHole.finish, StmtHole.fill, finishKind, Step.after]
    · refine (StmtHole.course_start token (hole.fill stmt).2).congr ?_
      intro each which
      rw [StmtHole.complete_of_ne (notEnd each which), taken, Step.after_nil]

theorem ExprHole.course_complete (token : Token) (value : Expr) (hole : ExprHole) :
    Course (fun each => hole.complete each value) token := by
  fun_induction ExprHole.complete token value hole with
  | case1 value name outer => exact outer.course_complete token _
  | case2 value outer => exact outer.course_complete token _
  | case3 value outer => exact outer.course_complete token _
  | case4 value op outer ih => exact ih
  | case5 value left op outer ih => exact ih
  | case6 value outer kind | case8 value outer kind =>
      exact .silent (by simp [ExprHole.complete, kind])
  | case7 value outer kind | case9 value outer kind =>
      exact .refused (.symbol .rightParen) (by simp [ExprHole.complete, kind])
  | case10 value callee earlier outer kind =>
      exact .silent (by simp [ExprHole.complete, kind])
  | case11 value callee earlier outer notComma kind =>
      exact .silent (by simp [ExprHole.complete, kind])
  | case12 value callee earlier outer notComma notParen =>
      exact .refused (.symbol .rightParen) (by simp [ExprHole.complete, notComma, notParen])

theorem ExprHole.course_extend (token : Token) (value : Expr) (hole : ExprHole) :
    Course (fun each => hole.extend each value) token := by
  cases found : BinaryOp.ofKind? token.kind with
  | some op => exact .silent (by simp [ExprHole.extend, found])
  | none =>
      by_cases kind : token.kind = .symbol .leftParen
      · exact .silent (by simp [ExprHole.extend, kind, BinaryOp.ofKind?])
      · refine (hole.course_complete token value).congr ?_
        rintro each (rfl | isEnd)
        · simp [ExprHole.extend, found, kind]
        · simp [ExprHole.extend, isEnd, BinaryOp.ofKind?]

theorem Reading.course_step (token : Token) (state : Reading) :
    Course (fun each => state.step each) token := by
  cases state with
  | ended => exact .silent rfl
  | statement hole => exact hole.course_start token
  | operand hole => exact hole.course_start token
  | operator value hole => exact hole.course_extend token value
  | firstArgument callee hole =>
      by_cases kind : token.kind = .symbol .rightParen
      · exact .silent (by simp [Reading.step, kind])
      · refine (ExprHole.course_start token (.argument callee [] hole)).congr ?_
        rintro each (rfl | isEnd)
        · simp [Reading.step, kind]
        · simp [Reading.step, isEnd]
  | otherwise condition consequence hole =>
      by_cases kind : token.kind = .keyword .elseWord
      · exact .silent (by simp [Reading.step, kind])
      · refine (hole.course_extend token (.ifThen condition consequence)).congr ?_
        rintro each (rfl | isEnd)
        · simp [Reading.step, kind]
        · simp [Reading.step, isEnd]
  | letName hole =>
      by_cases kind : token.kind = .ident
      · exact .silent (by simp [Reading.step, kind])
      · exact .refused .ident (by simp [Reading.step, kind])
  | firstParam hole =>
      by_cases closes : token.kind = .symbol .rightParen
      · exact .silent (by simp [Reading.step, closes])
      · by_cases kind : token.kind = .ident
        · exact .silent (by simp [Reading.step, kind])
        · exact .refused .ident (by simp [Reading.step, closes, kind])
  | laterParam earlier hole =>
      by_cases kind : token.kind = .ident
      · exact .silent (by simp [Reading.step, kind])
      · exact .refused .ident (by simp [Reading.step, kind])
  | paramEnd earlier hole =>
      by_cases more : token.kind = .symbol .comma
      · exact .silent (by simp [Reading.step, more])
      · by_cases closes : token.kind = .symbol .rightParen
        · exact .silent (by simp [Reading.step, closes])
        · exact .refused (.symbol .rightParen) (by simp [Reading.step, more, closes])
  | expect symbol next =>
      by_cases kind : token.kind = .symbol symbol
      · exact .silent (by simp [Reading.step, kind])
      · exact .refused (.symbol symbol) (by simp [Reading.step, kind])

/-! ### The errors of a step -/

theorem Reading.step_start_end {finish : Token} (finishKind : finish.kind = .eof) :
    Reading.start.step finish = ([], .ended) := by
  simp [Reading.start, Reading.step, StmtHole.start, StmtHole.finish, finishKind]

/-- The errors that a token can draw: none; one that blames it; or a refusal of it and then an error that
skips it. The end of the source is not skipped once it has been refused. -/
inductive Token.Draws (token : Token) : List ParseError → Prop where
  | nothing : Draws token []
  | one {error : ParseError} (blames : error.Blames token) : Draws token [error]
  | two (wanted : Kind) {error : ParseError} (blames : error.Blames token)
      (skips : error.isSkipped = true) (notEnd : token.kind ≠ .eof) :
      Draws token [.expected wanted token.kind token.span, error]

theorem Token.Draws.blames {token : Token} {errors : List ParseError} (draws : token.Draws errors) :
    ∀ error ∈ errors, error.Blames token := by
  cases draws with
  | nothing => exact List.forall_mem_nil _
  | one blames => exact List.forall_mem_singleton.mpr blames
  | two wanted blames =>
      exact List.forall_mem_cons.mpr ⟨⟨rfl, rfl⟩, List.forall_mem_singleton.mpr blames⟩

theorem Reading.draws_step (state : Reading) (token : Token) :
    token.Draws (Outcome.errors (state.step token).1) := by
  cases state.course_step token with
  | silent taken | ends stmt taken =>
      rw [taken]
      exact .nothing
  | follows stmt taken complete =>
      rw [taken, Step.fst_after, List.singleton_append, Outcome.errors_parsed_cons]
      rcases Reading.start_cases token with ⟨next, started⟩ | ⟨error, blames, -, started⟩
      · rw [started]
        exact .nothing
      · rw [started]
        exact .one blames
  | refused wanted taken =>
      rw [taken, Token.refuse, Step.fst_after, List.singleton_append, Outcome.errors_failed_cons]
      change token.Draws (_ :: Outcome.errors (Reading.start.step token).1)
      rcases Reading.start_cases token with ⟨next, started⟩ | ⟨error, blames, skips, started⟩
      · rw [started]
        exact .one ⟨rfl, rfl⟩
      · have notEnd : token.kind ≠ .eof := by
          intro kind
          rw [Reading.step_start_end kind] at started
          cases started
        rw [started]
        exact .two wanted blames skips notEnd
  | skipped error blames _ taken =>
      rw [taken]
      exact .one blames

/-- Every error blames the token at which it is found. -/
theorem Reading.blames_of_mem_errors {state : Reading} {token : Token} {error : ParseError}
    (member : error ∈ Outcome.errors (state.step token).1) : error.Blames token :=
  (state.draws_step token).blames error member

/-! ### The end of the source -/

/-- Behind an end of the source, a second one yields nothing. -/
theorem Reading.step_step_end {first second : Token} (firstKind : first.kind = .eof)
    (secondKind : second.kind = .eof) (state : Reading) :
    ((state.step first).2.step second).1 = [] := by
  have atStart : (Reading.start.step second).1 = [] := by
    rw [Reading.step_start_end secondKind]
  cases state.course_step first with
  | silent taken =>
      rw [Reading.step_end firstKind (by rw [taken]; rfl)]
      rfl
  | ends stmt taken =>
      rw [taken]
      exact atStart
  | follows stmt taken complete =>
      rw [complete first firstKind]
      rfl
  | refused wanted taken =>
      rw [taken, Token.refuse, Step.snd_after]
      change ((Reading.start.step first).2.step second).1 = []
      rw [Reading.step_start_end firstKind]
      rfl
  | skipped error blames _ taken =>
      rw [taken]
      exact atStart

/-- Where the tokens say themselves that the source ends, nothing is added. -/
theorem outcomesOf_end {finish : Token} (finishKind : finish.kind = .eof) (tokens : List Token) :
    outcomesOf (tokens ++ [finish]) = (Reading.start.feed (tokens ++ [finish])).1 := by
  rw [outcomesOf_eq_feed, Reading.feed_append, Step.fst_after, Reading.feed_singleton]
  generalize added : Token.eof (Parser.ofTokens (tokens ++ [finish])).finish = second
  have secondKind : second.kind = .eof := added ▸ rfl
  have silent := Reading.step_step_end finishKind secondKind (Reading.start.feed tokens).2
  have last : (Reading.start.feed (tokens ++ [finish])).2 =
      ((Reading.start.feed tokens).2.step finish).2 := by
    rw [Reading.feed_append, Step.snd_after, Reading.feed_singleton]
  rw [last, silent, List.append_nil]

end Monkey
