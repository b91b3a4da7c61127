import Monkey.Proofs.Reading.Boundary
import Monkey.Proofs.Reading.Correctness
import Monkey.Proofs.Reading.Course

/-!
# Recovery from errors

Reading goes round by round. Each round takes some tokens and yields one outcome for them: the one
statement that they spell, or one error. Then the next round starts as if nothing had been read. So
no token is lost or read twice, and no statement holds tokens of one that failed.
-/

namespace Monkey

/-- The tokens that one round takes, and what it yields. -/
structure Portion where
  tokens : List Token
  outcome : Outcome

/-- The outcome is the right one for the tokens, where `next` is the token behind them. -/
inductive Portion.Fits (next : Token) : Portion → Prop where
  | parsed {bare : Bool} {tokens : List Token} {stmt : Stmt}
      (spelled : Stmt.Spelled bare tokens stmt)
      (only : ∀ otherBare other, Stmt.Spelled otherBare tokens other → other = stmt) :
      Fits next ⟨tokens, .parsed stmt⟩
  /-- The next token is refused, and the next round starts with it. -/
  | refused {tokens : List Token} (wanted : Kind) :
      Fits next ⟨tokens, .failed (.expected wanted next.kind next.span)⟩
  /-- The last token is skipped. -/
  | skipped {tokens : List Token} {last : Token} {error : ParseError} (blames : error.Blames last)
      (skips : error.isSkipped = true) : Fits next ⟨tokens ++ [last], .failed error⟩
  /-- The source ends too early. -/
  | ended {tokens : List Token} {error : ParseError} (blames : error.Blames next)
      (finish : next.kind = .eof) : Fits next ⟨tokens, .failed error⟩

/-- The portions make up the tokens in front of the end of the source, and each of them is what one
round takes there. -/
inductive Portioned (finish : Token) : List Token → List Portion → Prop where
  | done : Portioned finish [] []
  | round {portion : Portion} {rest : List Token} {later : List Portion}
      (nonempty : portion.tokens ≠ []) (fits : portion.Fits (rest.headD finish))
      (yields : outcomesOf (portion.tokens ++ rest ++ [finish]) =
        portion.outcome :: outcomesOf (rest ++ [finish]))
      (restPortioned : Portioned finish rest later) :
      Portioned finish (portion.tokens ++ rest) (portion :: later)

/-! ### Single statements -/

theorem Stmt.spelled_of_singleton {bare : Bool} {tokens : List Token} {program : Program}
    {stmt : Stmt} (spelled : Program.Spelled bare tokens program) (single : program = [stmt]) :
    Stmt.Spelled bare tokens stmt := by
  cases spelled with
  | nil => simp at single
  | @snoc _ _ _ _ program last earlier _ lastSpelled =>
      rcases List.append_eq_singleton_iff.mp single with ⟨noneBefore, isLast⟩ | ⟨_, impossible⟩
      · cases isLast
        rw [earlier.nil_of_nil noneBefore]
        exact lastSpelled
      · simp at impossible

/-- A list of tokens spells one statement at most. -/
theorem Stmt.Spelled.unique {bare otherBare : Bool} {tokens : List Token} {stmt other : Stmt}
    (spelled : Stmt.Spelled bare tokens stmt) (otherSpelled : Stmt.Spelled otherBare tokens other) :
    other = stmt := by
  have isEnd : (Token.eof 0).kind = .eof := rfl
  have read := spelled.alone.feed_end isEnd
  rw [otherSpelled.alone.feed_end isEnd] at read
  simpa using read

theorem Portion.Fits.of_feed {next finish : Token} {tokens : List Token} {stmt : Stmt}
    (noEnd : ∀ token ∈ tokens, token.kind ≠ .eof) (finishKind : finish.kind = .eof)
    (read : (Reading.start.feed (tokens ++ [finish])).1 = [.parsed stmt]) :
    Portion.Fits next ⟨tokens, .parsed stmt⟩ := by
  have derived := (Reading.feed_end_iff noEnd finishKind [stmt]).mp (by simp [read])
  rcases derived with ⟨bare, programSpelled⟩
  have spelled := Stmt.spelled_of_singleton programSpelled rfl
  exact .parsed spelled fun _ _ otherSpelled => spelled.unique otherSpelled

/-! ### One round -/

/-- Reading that has just begun neither completes a statement at the end of the source nor refuses a
token. -/
theorem Reading.ne_nil_of_feed {taken : List Token} {state : Reading}
    (reached : Reading.start.feed taken = ([], state)) {token : Token}
    (begun : (∃ stmt, state.step token = ([.parsed stmt], .ended)) ∨
      ∃ wanted, state.step token = token.refuse wanted) : taken ≠ [] := by
  rintro rfl
  cases reached
  rcases Reading.start_cases token with ⟨next, first⟩ | ⟨error, _, _, first⟩ <;>
    rw [first] at begun
  · rcases begun with ⟨stmt, parsed⟩ | ⟨wanted, refused⟩
    · simp at parsed
    · simp [Token.refuse, Step.after] at refused
  · rcases begun with ⟨stmt, parsed⟩ | ⟨wanted, refused⟩
    · simp [ParseError.skip] at parsed
    · have outcomes := congrArg (fun step : Step => step.1.length) refused
      change _ = (Step.after _ (Reading.start.step token)).1.length at outcomes
      simp [first, ParseError.skip] at outcomes

/-- Where the tokens end, what has been taken of the last statement makes up a portion. -/
theorem Reading.exists_last_portion {finish : Token} (finishKind : finish.kind = .eof)
    {taken : List Token} {state : Reading} (reached : Reading.start.feed taken = ([], state))
    (nonempty : taken ≠ []) (noEnd : ∀ token ∈ taken, token.kind ≠ .eof) :
    ∃ outcome, Portion.Fits finish ⟨taken, outcome⟩ ∧
      (Reading.start.feed (taken ++ [finish])).1 = [outcome] := by
  have fed : Reading.start.feed (taken ++ [finish]) = state.step finish := by
    rw [Reading.feed_append_of_eq reached, Reading.feed_singleton]
  cases state.course_step finish with
  | silent quiet =>
      have derived := (Reading.feed_end_iff noEnd finishKind []).mp (by simp [fed, quiet])
      rcases derived with ⟨bare, spelled⟩
      exact absurd (spelled.nil_of_nil rfl) nonempty
  | ends stmt stepped =>
      have ended : (state.step finish).2 = .ended := Reading.step_end finishKind (by simp [stepped])
      simp [stepped, Reading.start] at ended
  | follows stmt _ complete =>
      have read : (Reading.start.feed (taken ++ [finish])).1 = [.parsed stmt] := by
        rw [fed, complete finish finishKind]
      exact ⟨.parsed stmt, .of_feed noEnd finishKind read, read⟩
  | refused wanted stepped =>
      refine ⟨_, .refused wanted, ?_⟩
      rw [fed, stepped, Token.refuse, Step.fst_after]
      change _ ++ (Reading.start.step finish).1 = _
      rw [Reading.step_start_end finishKind]
      rfl
  | skipped error blames _ stepped =>
      refine ⟨_, .ended blames finishKind, ?_⟩
      rw [fed, stepped]
      rfl

/-- Whatever tokens there are, one round takes some of them, and leaves the others as they are. -/
theorem Reading.exists_portion {finish : Token} (finishKind : finish.kind = .eof)
    {taken more : List Token} {state : Reading} (reached : Reading.start.feed taken = ([], state))
    (nonempty : taken ++ more ≠ []) (noEnd : ∀ token ∈ taken ++ more, token.kind ≠ .eof) :
    ∃ (portion : Portion) (rest : List Token), taken ++ more = portion.tokens ++ rest ∧
      portion.tokens ≠ [] ∧ portion.Fits (rest.headD finish) ∧
      (Reading.start.feed (taken ++ more ++ [finish])).1 =
        portion.outcome :: (Reading.start.feed (rest ++ [finish])).1 := by
  have atEnd : (Reading.start.feed [finish]).1 = [] := by
    rw [Reading.feed_singleton, Reading.step_start_end finishKind]
  -- The induction takes tokens as long as they go on with the first statement.
  induction more generalizing taken state with
  | nil =>
      rw [List.append_nil] at nonempty noEnd ⊢
      rcases Reading.exists_last_portion finishKind reached nonempty noEnd with
        ⟨outcome, fits, yields⟩
      refine ⟨⟨taken, outcome⟩, [], by simp, nonempty, fits, ?_⟩
      rw [yields, List.nil_append, atEnd]
  | cons token more ih =>
      have fed : Reading.start.feed (taken ++ token :: more ++ [finish]) =
          ((state.step token).2.feed (more ++ [finish])).after (state.step token).1 := by
        rw [List.append_assoc, Reading.feed_append_of_eq reached, List.cons_append,
          Reading.feed_cons]
      have fedToken : Reading.start.feed (taken ++ [token]) = state.step token := by
        rw [Reading.feed_append_of_eq reached, Reading.feed_singleton]
      have noEndTaken : ∀ each ∈ taken, each.kind ≠ .eof := by
        intro each member
        exact noEnd each (List.mem_append_left _ member)
      have noEndToken : ∀ each ∈ taken ++ [token], each.kind ≠ .eof := by
        rw [List.forall_mem_append]
        exact ⟨noEndTaken, by simpa using noEnd token (by simp)⟩
      have split : taken ++ token :: more = taken ++ [token] ++ more := by simp
      cases state.course_step token with
      | silent quiet =>
          have reachedNext : Reading.start.feed (taken ++ [token]) = ([], (state.step token).2) := by
            rw [fedToken, ← quiet]
          rw [split] at nonempty noEnd ⊢
          exact ih reachedNext nonempty noEnd
      | ends stmt stepped =>
          refine ⟨⟨taken ++ [token], .parsed stmt⟩, more, split, by simp, ?_, ?_⟩
          · refine .of_feed noEndToken finishKind ?_
            rw [Reading.feed_append, fedToken, stepped]
            simp [Reading.step_start_end finishKind]
          · rw [fed, stepped]
            rfl
      | follows stmt stepped complete =>
          have begun := Reading.ne_nil_of_feed reached (.inl ⟨stmt, complete finish finishKind⟩)
          refine ⟨⟨taken, .parsed stmt⟩, token :: more, rfl, begun, ?_, ?_⟩
          · refine .of_feed noEndTaken finishKind ?_
            rw [Reading.feed_append_of_eq reached, Reading.feed_singleton,
              complete finish finishKind]
          · rw [fed, stepped, List.cons_append, Reading.feed_cons]
            simp
      | refused wanted stepped =>
          have begun := Reading.ne_nil_of_feed reached (.inr ⟨wanted, stepped⟩)
          refine ⟨⟨taken, _⟩, token :: more, rfl, begun, .refused wanted, ?_⟩
          rw [fed, stepped, List.cons_append, Reading.feed_cons]
          rfl
      | skipped error blames skips stepped =>
          have isSkipped : error.isSkipped = true :=
            skips.resolve_right (noEnd token (by simp))
          refine ⟨⟨taken ++ [token], .failed error⟩, more, split, by simp,
            .skipped blames isSkipped, ?_⟩
          rw [fed, stepped]
          rfl

/-! ### All rounds -/

theorem Portioned.exists_of_tokens {finish : Token} (finishKind : finish.kind = .eof)
    (tokens : List Token) (noEnd : ∀ token ∈ tokens, token.kind ≠ .eof) :
    ∃ portions, Portioned finish tokens portions := by
  -- Each round leaves fewer tokens, since it takes some.
  induction length : tokens.length using Nat.strongRecOn generalizing tokens with
  | ind size ih =>
      by_cases empty : tokens = []
      · rw [empty]
        exact ⟨[], .done⟩
      · have begun : Reading.start.feed [] = ([], .start) := rfl
        rcases Reading.exists_portion finishKind begun empty noEnd with
          ⟨portion, rest, whole, nonempty, fits, yields⟩
        rw [List.nil_append] at whole yields
        subst whole
        have shorter : rest.length < size := by
          have taken := List.length_pos_iff.mpr nonempty
          rw [← length, List.length_append]
          omega
        have noEndRest : ∀ token ∈ rest, token.kind ≠ .eof := by
          intro token member
          exact noEnd token (List.mem_append_right _ member)
        rcases ih rest.length shorter rest noEndRest rfl with ⟨later, restPortioned⟩
        refine ⟨portion :: later, .round nonempty fits ?_ restPortioned⟩
        rw [outcomesOf_end finishKind, outcomesOf_end finishKind]
        exact yields

theorem Portioned.flatMap_tokens {finish : Token} {tokens : List Token} {portions : List Portion}
    (portioned : Portioned finish tokens portions) :
    portions.flatMap Portion.tokens = tokens := by
  induction portioned with
  | done => rfl
  | round _ _ _ _ ih => rw [List.flatMap_cons, ih]

theorem Portioned.outcomesOf_eq {finish : Token} (finishKind : finish.kind = .eof)
    {tokens : List Token} {portions : List Portion} (portioned : Portioned finish tokens portions) :
    outcomesOf (tokens ++ [finish]) = portions.map Portion.outcome := by
  induction portioned with
  | done =>
      rw [outcomesOf_end finishKind, List.nil_append, Reading.feed_singleton,
        Reading.step_start_end finishKind]
      rfl
  | round _ _ yields _ ih => rw [yields, ih, List.map_cons]

/-- The tokens in front of the end of the source fall into consecutive portions, none of them empty.
Each spells one statement of the program, or yields one error and no statement, and the outcomes are
those of the portions, in their order. -/
theorem parse_eq_portions (tokens : List Token) (finish : Token)
    (noEnd : ∀ token ∈ tokens, token.kind ≠ .eof) (finishKind : finish.kind = .eof) :
    ∃ portions : List Portion, Portioned finish tokens portions ∧
      portions.flatMap Portion.tokens = tokens ∧
      parse (tokens ++ [finish]) =
        (Outcome.program (portions.map Portion.outcome),
          Outcome.errors (portions.map Portion.outcome)) := by
  rcases Portioned.exists_of_tokens finishKind tokens noEnd with ⟨portions, portioned⟩
  refine ⟨portions, portioned, portioned.flatMap_tokens, ?_⟩
  rw [parse, portioned.outcomesOf_eq finishKind]

/-- In `let 1 ; x` the binding fails at the numeral, with which the next statement starts. -/
theorem portions_of_nameless_binding :
    ∃ portions : List Portion,
      Portioned (.eof 9)
        [⟨.keyword .letWord, "let", ⟨0, 3⟩⟩, ⟨.int, "1", ⟨4, 5⟩⟩, ⟨.symbol .semicolon, ";", ⟨6, 7⟩⟩,
          ⟨.ident, "x", ⟨8, 9⟩⟩] portions ∧
        Outcome.program (portions.map Portion.outcome) = [.expr (.int 1), .expr (.ident "x")] ∧
        Outcome.errors (portions.map Portion.outcome) = [.expected .ident .int ⟨4, 5⟩] := by
  rcases parse_eq_portions
      [⟨.keyword .letWord, "let", ⟨0, 3⟩⟩, ⟨.int, "1", ⟨4, 5⟩⟩, ⟨.symbol .semicolon, ";", ⟨6, 7⟩⟩,
        ⟨.ident, "x", ⟨8, 9⟩⟩] (.eof 9) (by decide) rfl with ⟨portions, portioned, -, parsed⟩
  have program := congrArg Prod.fst parsed
  have errors := congrArg Prod.snd parsed
  exact ⟨portions, portioned, program.symm.trans rfl, errors.symm.trans rfl⟩

end Monkey
