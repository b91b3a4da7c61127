import Monkey.Proofs.Reading.Recovery

/-!
# Reading comes to an end

Whatever tokens a parser is given, a call of it ends: with the end of the source behind the tokens for
ever, reading takes two ends of it at most. It stops at an end of the source and stays there, so that
further calls yield nothing.

A statement of the program that has begun owes one outcome. Only a token that is no end of the source
begins a statement, since the end of the source ends the program where none has begun. So there are at
most as many outcomes as such tokens.
-/

namespace Monkey

/-! ### Where reading stops -/

/-- Reading goes on, and will do so behind the symbols that it expects. -/
def Reading.isGoing : Reading → Bool
  | .ended => false
  | .expect _ next => next.isGoing
  | _ => true

/-- The step goes on, unless it ends the program at an end of the source. -/
def Step.GoesOn (token : Token) (step : Step) : Prop :=
  step.2.isGoing = true ∨ token.kind = .eof ∧ step.2 = .ended

theorem ExprHole.goesOn_start (token : Token) (hole : ExprHole) :
    (ExprHole.start token hole).GoesOn token := by
  left
  unfold ExprHole.start
  split
  case h_2 | h_9 => split <;> rfl
  all_goals rfl

theorem StmtHole.goesOn_start (token : Token) (hole : StmtHole) :
    (hole.start token).GoesOn token := by
  unfold StmtHole.start
  split
  · exact .inl rfl
  · exact .inl rfl
  · exact .inl rfl
  · cases hole with
    | program => exact ExprHole.goesOn_start token _
    | _ => exact .inl rfl
  · rename_i kind
    cases hole with
    | program => exact .inr ⟨kind, rfl⟩
    | _ => exact .inl rfl
  · exact ExprHole.goesOn_start token _

theorem Token.goesOn_refuse (token : Token) (wanted : Kind) :
    (token.refuse wanted).GoesOn token :=
  StmtHole.goesOn_start token .program

theorem StmtHole.goesOn_complete (token : Token) (stmt : Stmt) (hole : StmtHole) :
    (hole.complete token stmt).GoesOn token := by
  by_cases kind : token.kind = .symbol .semicolon
  · rw [StmtHole.complete_of_semicolon kind]
    exact .inl rfl
  · rw [StmtHole.complete_of_ne kind]
    exact StmtHole.goesOn_start token _

theorem ExprHole.goesOn_complete (token : Token) (value : Expr) (hole : ExprHole) :
    (hole.complete token value).GoesOn token := by
  fun_induction ExprHole.complete token value hole with
  | case1 | case2 | case3 => exact StmtHole.goesOn_complete token _ _
  | case4 _ _ _ ih | case5 _ _ _ _ ih => exact ih
  | case6 | case8 | case10 | case11 => exact .inl rfl
  | case7 | case9 | case12 => exact Token.goesOn_refuse token _

theorem ExprHole.goesOn_extend (token : Token) (value : Expr) (hole : ExprHole) :
    (hole.extend token value).GoesOn token := by
  unfold ExprHole.extend
  split
  · exact .inl rfl
  · split
    · exact .inl rfl
    · exact ExprHole.goesOn_complete token value hole

/-- Nothing but an end of the source ends the program. -/
theorem Reading.goesOn_step {state : Reading} (going : state.isGoing = true) (token : Token) :
    (state.step token).GoesOn token := by
  cases state with
  | ended => simp [Reading.isGoing] at going
  | statement hole => exact StmtHole.goesOn_start token hole
  | operand hole => exact ExprHole.goesOn_start token hole
  | operator value hole => exact ExprHole.goesOn_extend token value hole
  | firstArgument callee hole =>
      rw [Reading.step]
      split
      · exact .inl rfl
      · exact ExprHole.goesOn_start token _
  | otherwise condition consequence hole =>
      rw [Reading.step]
      split
      · exact .inl rfl
      · exact ExprHole.goesOn_extend token _ hole
  | letName | laterParam =>
      rw [Reading.step]
      split
      · exact .inl rfl
      · exact Token.goesOn_refuse token _
  | firstParam | paramEnd =>
      rw [Reading.step]
      split
      · exact .inl rfl
      · split
        · exact .inl rfl
        · exact Token.goesOn_refuse token _
  | expect symbol next =>
      rw [Reading.step]
      split
      · exact .inl going
      · exact Token.goesOn_refuse token _

theorem Reading.run_cons_of_ended {state : Reading} {token : Token}
    (stops : (state.step token).2 = .ended) (rest : List Token) :
    state.run (token :: rest) = ((state.step token).1, .ended, token :: rest) := by
  rw [run]
  split
  · rename_i outcomes stepped
    rw [stepped]
  · rename_i outcomes next going stepped
    rw [stepped] at stops
    exact absurd stops going

theorem Reading.run_cons_of_going {state : Reading} {token : Token}
    (going : (state.step token).2.isGoing = true) (rest : List Token) :
    state.run (token :: rest) =
      ((state.step token).1 ++ ((state.step token).2.run rest).1,
        ((state.step token).2.run rest).2) := by
  rw [run]
  split
  · rename_i outcomes stepped
    rw [stepped] at going
    simp [isGoing] at going
  · rename_i outcomes next _ stepped
    rw [stepped]

/-- Either a run stops at an end of the source among the tokens, or it takes all of them and goes on
with those behind them. -/
theorem Reading.run_cases {state : Reading} (going : state.isGoing = true) (tokens : List Token) :
    (∃ (outcomes : List Outcome) (finish : Token) (rest : List Token), finish.kind = .eof ∧
      ∀ more, state.run (tokens ++ more) = (outcomes, .ended, finish :: (rest ++ more))) ∨
    ∃ (outcomes : List Outcome) (last : Reading), last.isGoing = true ∧
      ∀ more, state.run (tokens ++ more) = (outcomes ++ (last.run more).1, (last.run more).2) := by
  induction tokens generalizing state with
  | nil => exact .inr ⟨[], state, going, fun more => rfl⟩
  | cons token rest ih =>
      rcases Reading.goesOn_step going token with goingNext | ⟨kind, stops⟩
      · rcases ih goingNext with
          ⟨outcomes, finish, left, kind, runs⟩ | ⟨outcomes, last, goingLast, runs⟩
        · refine .inl ⟨(state.step token).1 ++ outcomes, finish, left, kind, fun more => ?_⟩
          rw [List.cons_append, run_cons_of_going goingNext, runs]
        · refine .inr ⟨(state.step token).1 ++ outcomes, last, goingLast, fun more => ?_⟩
          rw [List.cons_append, run_cons_of_going goingNext, runs, List.append_assoc]
      · exact .inl ⟨_, token, rest, kind, fun more => run_cons_of_ended stops _⟩

/-- Reading that has not stopped does so at the second end of the source behind the tokens. -/
theorem Reading.exists_run_ends {state : Reading} (going : state.isGoing = true) {finish : Token}
    (kind : finish.kind = .eof) (later : List Token) :
    ∃ rest, state.run (finish :: finish :: later) =
      ((state.step finish).1, .ended, finish :: rest) := by
  rcases Reading.goesOn_step going finish with goingNext | ⟨-, stops⟩
  · have nothing := Reading.step_step_end kind kind state
    have stops : ((state.step finish).2.step finish).2 = .ended :=
      Reading.step_end kind (by rw [nothing]; rfl)
    refine ⟨later, ?_⟩
    rw [run_cons_of_going goingNext, run_cons_of_ended stops, nothing, List.append_nil]
  · exact ⟨_, run_cons_of_ended stops _⟩

/-! ### How much reading yields -/

/-- The outcomes that are owed: one for a statement of the program that has begun. -/
def Reading.owed : Reading → Nat
  | .ended | .statement .program => 0
  | _ => 1

theorem Reading.owed_le_one (state : Reading) : state.owed ≤ 1 := by
  unfold owed
  split <;> omega

theorem Reading.owed_cases (state : Reading) :
    state = .ended ∨ state = .start ∨ state.owed = 1 := by
  unfold owed
  split <;> simp [start]

theorem Reading.owed_step_start (token : Token) :
    (Reading.start.step token).1.length + (Reading.start.step token).2.owed ≤
      if token.kind ≠ .eof then 1 else 0 := by
  by_cases kind : token.kind = .eof
  · simp [Reading.step_start_end kind, owed]
  · rw [if_pos kind]
    rcases Reading.start_cases token with ⟨next, taken⟩ | ⟨error, -, -, taken⟩
    · simpa [taken] using next.owed_le_one
    · rw [taken]
      simp [ParseError.skip, start, owed]

/-- No token yields more than what is owed and what it begins itself. -/
theorem Reading.owed_step (state : Reading) (token : Token) :
    (state.step token).1.length + (state.step token).2.owed ≤
      state.owed + if token.kind ≠ .eof then 1 else 0 := by
  rcases state.owed_cases with rfl | rfl | owes
  · simp [step, owed]
  · exact Nat.le_trans (Reading.owed_step_start token) (Nat.le_add_left _ _)
  · have next := (state.step token).2.owed_le_one
    have restarted := Reading.owed_step_start token
    rw [owes]
    -- Where the owed outcome is yielded, the token begins at most one statement, from the start.
    cases state.course_step token with
    | silent taken =>
        rw [taken, List.length_nil]
        omega
    | ends stmt taken => simp [taken, start, owed]
    | follows stmt taken complete =>
        rw [taken, Step.fst_after, Step.snd_after, List.length_append, List.length_singleton]
        omega
    | refused wanted taken =>
        rw [taken, Token.refuse, Step.fst_after, Step.snd_after, List.length_append,
          List.length_singleton]
        change 1 + (Reading.start.step token).1.length + (Reading.start.step token).2.owed ≤ _
        omega
    | skipped error blames skips taken => simp [taken, ParseError.skip, start, owed]

theorem Reading.length_feed_le (state : Reading) (tokens : List Token) :
    (state.feed tokens).1.length + (state.feed tokens).2.owed ≤
      state.owed + tokens.countP fun token => token.kind ≠ .eof := by
  induction tokens generalizing state with
  | nil => simp
  | cons token rest ih =>
      have first := state.owed_step token
      have later := ih (state.step token).2
      simp only [Reading.feed_cons, Step.fst_after, Step.snd_after, List.length_append,
        List.countP_cons, decide_eq_true_eq] at first later ⊢
      omega

theorem Outcome.length_program_add_length_errors (outcomes : List Outcome) :
    (program outcomes).length + (errors outcomes).length = outcomes.length := by
  induction outcomes with
  | nil => rfl
  | cons outcome rest ih =>
      cases outcome <;> simp [← ih] <;> omega

theorem exists_first_end (tokens : List Token) {finish : Token} (finishKind : finish.kind = .eof) :
    ∃ front last rest, tokens ++ [finish] = front ++ last :: rest ∧ last.kind = .eof ∧
      ∀ token ∈ front, token.kind ≠ .eof := by
  induction tokens with
  | nil => exact ⟨[], finish, [], rfl, finishKind, List.forall_mem_nil _⟩
  | cons token tokens ih =>
      by_cases kind : token.kind = .eof
      · exact ⟨[], token, tokens ++ [finish], rfl, kind, List.forall_mem_nil _⟩
      · rcases ih with ⟨front, last, rest, split, lastKind, noEnd⟩
        refine ⟨token :: front, last, rest, ?_, lastKind, List.forall_mem_cons.mpr ⟨kind, noEnd⟩⟩
        rw [List.cons_append, split, List.cons_append]

/-- Unless the source ends at once, something is yielded. -/
theorem Reading.feed_start_ne_nil {first finish : Token} (notEnd : first.kind ≠ .eof)
    (rest : List Token) (finishKind : finish.kind = .eof) :
    (Reading.start.feed (first :: rest ++ [finish])).1 ≠ [] := by
  rcases exists_first_end (first :: rest) finishKind with
    ⟨front, last, more, split, lastKind, noEnd⟩
  have nonempty : front ≠ [] := by
    rintro rfl
    cases split
    exact notEnd lastKind
  have begun : Reading.start.feed [] = ([], .start) := rfl
  rcases Reading.exists_portion lastKind begun nonempty noEnd with
    ⟨portion, others, -, -, -, yields⟩
  rw [List.nil_append] at yields
  rw [split, List.append_cons, Reading.feed_append, Step.fst_after, yields]
  simp

/-! ### Calls of a parser -/

namespace Parser

/-- The token at which the parser is; where its tokens have run out, it is at the end of the source. -/
def current (parser : Parser) : Token := parser.unread.headD (.eof parser.finish)

/-- The parser after a number of calls. -/
def afterCalls (parser : Parser) : Nat → Parser
  | 0 => parser
  | calls + 1 => (parser.afterCalls calls).parseProgram.2

/-- A call of the parser comes to an end, and so do all further calls. -/
structure Ends (parser : Parser) : Prop where
  /-- With two ends of the source behind them, the tokens are enough to come to the end of the program,
  whatever is behind these. The parser is left at the token at which reading stops. -/
  reached : ∀ later, ∃ rest,
    Reading.start.run (parser.unread ++ .eof parser.finish :: .eof parser.finish :: later) =
      (parser.parseProgram.1, .ended, parser.parseProgram.2.current :: rest)
  current : parser.parseProgram.2.current.kind = .eof
  /-- There are no more statements and errors than tokens that are no end of the source. -/
  atMost : (Outcome.program parser.parseProgram.1).length +
      (Outcome.errors parser.parseProgram.1).length ≤
    parser.unread.countP fun token => token.kind ≠ .eof
  atLeast : parser.current.kind ≠ .eof →
    1 ≤ (Outcome.program parser.parseProgram.1).length +
      (Outcome.errors parser.parseProgram.1).length
  further : ∀ calls, (parser.afterCalls (calls + 1)).parseProgram.1 = []

theorem parseProgram_of_ended {parser : Parser} {outcomes : List Outcome} {unread : List Token}
    (runs : Reading.start.run parser.unread = (outcomes, .ended, unread)) :
    parser.parseProgram = (outcomes, { parser with unread := unread }) := by
  rw [parseProgram, runs]

theorem parseProgram_of_going {parser : Parser} {outcomes : List Outcome} {last : Reading}
    {unread : List Token} (runs : Reading.start.run parser.unread = (outcomes, last, unread))
    (going : last.isGoing = true) :
    parser.parseProgram = (outcomes ++ (last.step (.eof parser.finish)).1,
      { parser with unread := unread }) := by
  rw [parseProgram, runs]
  split
  · rename_i stopped
    cases stopped
    simp [Reading.isGoing] at going
  · rename_i same
    cases same
    rfl

/-- A call of a parser comes to an end, and is left at an end of the source. -/
theorem exists_run_ends (parser : Parser) :
    parser.parseProgram.2.current.kind = .eof ∧ ∀ later, ∃ rest,
      Reading.start.run (parser.unread ++ .eof parser.finish :: .eof parser.finish :: later) =
        (parser.parseProgram.1, .ended, parser.parseProgram.2.current :: rest) := by
  rcases Reading.run_cases (show Reading.start.isGoing = true from rfl) parser.unread with
    ⟨outcomes, finish, rest, kind, runs⟩ | ⟨outcomes, last, going, runs⟩
  · have whole := runs []
    rw [List.append_nil, List.append_nil] at whole
    rw [parseProgram_of_ended whole]
    exact ⟨kind, fun later => ⟨_, runs _⟩⟩
  · have whole := runs []
    simp only [List.append_nil, Reading.run] at whole
    rw [parseProgram_of_going whole going]
    refine ⟨rfl, fun later => ?_⟩
    have atEnd : (Token.eof parser.finish).kind = .eof := rfl
    rcases Reading.exists_run_ends going atEnd later with ⟨rest, stops⟩
    exact ⟨rest, by rw [runs, stops]; rfl⟩

theorem parseProgram_again {parser : Parser} (atEnd : parser.current.kind = .eof) :
    parser.parseProgram = ([], parser) := by
  rcases parser with ⟨unread, finish⟩
  cases unread with
  | nil =>
      have stops : Reading.start.step (.eof finish) = ([], .ended) := Reading.step_start_end atEnd
      rw [parseProgram_of_going (show _ = ([], .start, []) from rfl) rfl, stops]
      rfl
  | cons token rest =>
      have stops : Reading.start.step token = ([], .ended) := Reading.step_start_end atEnd
      have runs := Reading.run_cons_of_ended (congrArg Prod.snd stops) rest
      rw [stops] at runs
      exact parseProgram_of_ended runs

theorem afterCalls_succ (parser : Parser) (calls : Nat) :
    parser.afterCalls (calls + 1) = parser.parseProgram.2 := by
  induction calls with
  | zero => rfl
  | succ calls ih =>
      change (parser.afterCalls (calls + 1)).parseProgram.2 = _
      rw [ih, parseProgram_again parser.exists_run_ends.1]

/-- Whatever tokens a parser holds, a call of it comes to an end, with at most one outcome for each token
that is no end of the source, and further calls yield nothing. -/
theorem parseProgram_ends (parser : Parser) : parser.Ends := by
  rcases parser.exists_run_ends with ⟨atEnd, reached⟩
  have lengths := Outcome.length_program_add_length_errors parser.parseProgram.1
  refine ⟨reached, atEnd, ?_, ?_, ?_⟩
  · have bounded := Reading.start.length_feed_le (parser.unread ++ [.eof parser.finish])
    have noMore : [Token.eof parser.finish].countP (fun token => token.kind ≠ .eof) = 0 := rfl
    rw [← parser.outcomes_eq_feed, List.countP_append, noMore] at bounded
    simp only [Reading.start, Reading.owed] at bounded
    omega
  · intro notEnd
    rw [lengths, parser.outcomes_eq_feed]
    apply List.length_pos_iff.mpr
    rcases parser with ⟨unread, finish⟩
    cases unread with
    | nil => exact absurd rfl notEnd
    | cons first rest => exact Reading.feed_start_ne_nil notEnd rest rfl
  · intro calls
    rw [afterCalls_succ, parseProgram_again atEnd]

/-- Where a statement has begun, an end of the source is to blame, and reading goes on behind it. -/
example : (ofTokens [⟨.symbol .minus, "-", ⟨0, 1⟩⟩, .eof 1, ⟨.int, "x", ⟨1, 2⟩⟩]).parseProgram.1 =
    [.failed (.noExpression .eof ⟨1, 1⟩), .failed (.badInteger "x" ⟨1, 2⟩)] := by
  rfl

end Parser

end Monkey
