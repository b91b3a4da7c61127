import Monkey.Proofs.Reading.FirstError

/-!
# What errors blame

Errors are found at the tokens, one token after the other. So they come in the order of the source, and
each blames a token that is there. A token that is refused is read again, as the start of a statement,
and may fail once more; then it is skipped, so no token draws more than two errors. At the end of the
source there is nothing to read again: it draws one error at most, and that is the last one.
-/

namespace Monkey

/-- The errors are those that the tokens draw, in the order of the tokens. -/
inductive Drawn : List Token → List ParseError → Prop where
  | nil : Drawn [] []
  | cons {token : Token} {rest : List Token} {errors later : List ParseError}
      (draws : token.Draws errors) (restDrawn : Drawn rest later) :
      Drawn (token :: rest) (errors ++ later)

theorem Reading.drawn_feed (state : Reading) (tokens : List Token) :
    Drawn tokens (Outcome.errors (state.feed tokens).1) := by
  induction tokens generalizing state with
  | nil => exact .nil
  | cons token rest ih =>
      rw [Reading.feed_cons, Step.fst_after, Outcome.errors_append]
      exact .cons (state.draws_step token) (ih _)

namespace Drawn

variable {tokens front back : List Token} {token finish : Token} {errors : List ParseError}

theorem exists_blamed (drawn : Drawn tokens errors) :
    ∀ error ∈ errors, ∃ token ∈ tokens, error.Blames token := by
  induction drawn with
  | nil => exact List.forall_mem_nil _
  | cons draws _ ih =>
      refine List.forall_mem_append.mpr ⟨fun error member => ?_, fun error member => ?_⟩
      · exact ⟨_, List.mem_cons_self, draws.blames error member⟩
      · rcases ih error member with ⟨token, later, blames⟩
        exact ⟨token, List.mem_cons_of_mem _ later, blames⟩

theorem pairwise_span (drawn : Drawn tokens errors)
    (ordered : tokens.Pairwise fun earlier later => earlier.span.stop ≤ later.span.start) :
    errors.Pairwise fun earlier later =>
      earlier.span = later.span ∨ earlier.span.stop ≤ later.span.start := by
  induction drawn with
  | nil => exact .nil
  | @cons token rest errors later draws restDrawn ih =>
      rw [List.pairwise_cons] at ordered
      have same : ∀ error ∈ errors, error.span = token.span := fun error member =>
        (draws.blames error member).span_eq.symm
      refine List.pairwise_append.mpr ⟨?_, ih ordered.2, ?_⟩
      · refine List.pairwise_of_forall_mem_list fun first member second secondMember => .inl ?_
        exact (same first member).trans (same second secondMember).symm
      · intro error member other otherMember
        rcases restDrawn.exists_blamed other otherMember with ⟨blamed, blamedMember, blames⟩
        rw [same error member, ← blames.span_eq]
        exact .inr (ordered.1 blamed blamedMember)

/-- No error blames a span that no token has. -/
theorem span_ne (drawn : Drawn tokens errors) {span : Span}
    (absent : ∀ token ∈ tokens, token.span ≠ span) : ∀ error ∈ errors, error.span ≠ span := by
  intro error member
  rcases drawn.exists_blamed error member with ⟨token, tokenMember, blames⟩
  rw [← blames.span_eq]
  exact absent token tokenMember

/-- Where no two tokens have the same span, the errors with the span of a token are what it draws. -/
theorem draws_filter (drawn : Drawn tokens errors)
    (distinct : tokens.Pairwise fun earlier later => earlier.span ≠ later.span)
    (member : token ∈ tokens) : token.Draws (errors.filter fun error => error.span = token.span) := by
  induction drawn with
  | nil => cases member
  | @cons first rest errors later draws restDrawn ih =>
      rw [List.pairwise_cons] at distinct
      have same : ∀ error ∈ errors, error.span = first.span := fun error errorMember =>
        (draws.blames error errorMember).span_eq.symm
      rw [List.filter_append]
      rcases List.mem_cons.mp member with rfl | restMember
      · have others := restDrawn.span_ne fun other otherMember =>
          (distinct.1 other otherMember).symm
        rw [List.filter_eq_self.mpr (by simpa using same),
          List.filter_eq_nil_iff.mpr (by simpa using others), List.append_nil]
        exact draws
      · have others : ∀ error ∈ errors, error.span ≠ token.span := fun error errorMember =>
          same error errorMember ▸ distinct.1 token restMember
        rw [List.filter_eq_nil_iff.mpr (by simpa using others), List.nil_append]
        exact ih distinct.2 restMember

theorem exists_last (drawn : Drawn (front ++ [finish]) errors) :
    ∃ earlier final, errors = earlier ++ final ∧ Drawn front earlier ∧ finish.Draws final := by
  induction front generalizing errors with
  | nil =>
      rcases drawn with _ | ⟨draws, restDrawn⟩
      cases restDrawn
      exact ⟨[], _, List.append_nil _, .nil, draws⟩
  | cons token front ih =>
      rcases drawn with _ | @⟨_, _, own, _, draws, restDrawn⟩
      rcases ih restDrawn with ⟨earlier, final, rfl, frontDrawn, finalDraws⟩
      exact ⟨own ++ earlier, final, (List.append_assoc _ _ _).symm, .cons draws frontDrawn,
        finalDraws⟩

/-- An error at the end of the source is the last one, and the only one there. -/
theorem last_of_span_eq (drawn : Drawn (front ++ [finish]) errors) (finishKind : finish.kind = .eof)
    (distinct : ∀ token ∈ front, token.span ≠ finish.span) {error : ParseError}
    (member : error ∈ errors) (atEnd : error.span = finish.span) :
    ∃ earlier, errors = earlier ++ [error] ∧ ∀ other ∈ earlier, other.span ≠ finish.span := by
  rcases drawn.exists_last with ⟨earlier, final, rfl, frontDrawn, draws⟩
  have others := frontDrawn.span_ne distinct
  rcases List.mem_append.mp member with inFront | inFinal
  · exact absurd atEnd (others error inFront)
  · cases draws with
    | nothing => cases inFinal
    | one _ =>
        cases List.mem_singleton.mp inFinal
        exact ⟨earlier, rfl, others⟩
    | two _ _ _ notEnd => exact absurd finishKind notEnd

end Drawn

/-- The errors blame tokens that are there, in the order of the tokens, and none of them too often. -/
structure BlamedInOrder (tokens : List Token) (errors : List ParseError) : Prop where
  real : ∀ error ∈ errors, ∃ token ∈ tokens, error.Blames token
  ordered : errors.Pairwise fun earlier later =>
    earlier.span = later.span ∨ earlier.span.stop ≤ later.span.start
  /-- At most two errors blame one token; of two, the first refuses and the second skips it. -/
  each : ∀ token ∈ tokens, token.Draws (errors.filter fun error => error.span = token.span)
  /-- At most one error blames the end of the source, and no error comes behind it. -/
  last : ∀ finish ∈ tokens, finish.kind = .eof → ∀ error ∈ errors, error.span = finish.span →
    ∃ earlier, errors = earlier ++ [error] ∧ ∀ other ∈ earlier, other.span ≠ finish.span

theorem parseText_blamed_in_order (source : String) :
    BlamedInOrder (tokenize source) (parseText source).2 := by
  have ordered := pairwise_tokenize source
  have distinct : (tokenize source).Pairwise fun earlier later => earlier.span ≠ later.span := by
    refine (pairwise_start_tokenize source).imp fun before same => ?_
    rw [same] at before
    exact Nat.lt_irrefl _ before
  rcases tokenize_eq_append_end source with ⟨finish, tokens, noEnd⟩
  have drawn : Drawn (tokenize source) (parseText source).2 := by
    rw [parseText, parse, tokens, outcomesOf_end rfl]
    exact Reading.start.drawn_feed _
  refine ⟨drawn.exists_blamed, drawn.pairwise_span (ordered.imp And.right),
    fun _ => drawn.draws_filter distinct, ?_⟩
  intro last member lastKind error errorMember atEnd
  rw [tokens] at drawn distinct member
  rcases List.mem_append.mp member with inFront | isLast
  · exact absurd lastKind (noEnd last inFront)
  · cases List.mem_singleton.mp isLast
    have apart : ∀ token ∈ tokensBeforeEnd source, token.span ≠ (Token.eof finish).span :=
      fun token tokenMember => (List.pairwise_append.mp distinct).2.2 token tokenMember _ isLast
    exact drawn.last_of_span_eq lastKind apart errorMember atEnd

/-- The parenthesis is no name, and no statement starts with it. -/
example : (parseText "let ) let").2 =
    [.expected .ident (.symbol .rightParen) ⟨4, 5⟩, .noExpression (.symbol .rightParen) ⟨4, 5⟩,
      .expected .ident .eof ⟨9, 9⟩] := by
  decide +kernel

end Monkey
