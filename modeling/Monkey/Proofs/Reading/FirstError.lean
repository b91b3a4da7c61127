import Monkey.Proofs.Reading.Completion
import Monkey.Proofs.Token.Tiling

/-!
# The first error of a source text

The first error stands where the source text goes wrong: what is in front of the token that it blames
can be completed to a program, and with that token it cannot. Reading looks at no token behind it, so
the error is the same whatever follows. If it is the end of the source that is to blame, the text is
the beginning of a program, and there is no other error.
-/

namespace Monkey

/-! ### The first error of a reading -/

theorem Reading.exists_first_error {state : Reading} {tokens : List Token} {error : ParseError}
    {rest : List ParseError} (fails : Outcome.errors (state.feed tokens).1 = error :: rest) :
    ∃ before token after more, tokens = before ++ token :: after ∧
      Outcome.errors (state.feed before).1 = [] ∧
      Outcome.errors ((state.feed before).2.step token).1 = error :: more ∧
      rest = more ++ Outcome.errors (((state.feed before).2.step token).2.feed after).1 := by
  induction tokens generalizing state with
  | nil => simp at fails
  | cons token tokens ih =>
      rw [Reading.feed_cons, Step.fst_after, Outcome.errors_append] at fails
      cases stepped : Outcome.errors (state.step token).1 with
      | nil =>
          rw [stepped, List.nil_append] at fails
          rcases ih fails with ⟨before, blamed, after, more, rfl, clean, found, others⟩
          refine ⟨token :: before, blamed, after, more, rfl, ?_, found, others⟩
          rw [Reading.feed_cons, Step.fst_after, Outcome.errors_append, stepped, clean,
            List.append_nil]
      | cons first more =>
          rw [stepped, List.cons_append, List.cons.injEq] at fails
          rcases fails with ⟨rfl, rfl⟩
          exact ⟨[], token, tokens, more, rfl, rfl, stepped, rfl⟩

/-- At an end of the source there is one error at most. -/
theorem Reading.errors_step_end {finish : Token} (finishKind : finish.kind = .eof)
    {state : Reading} {error : ParseError} {more : List ParseError}
    (found : Outcome.errors (state.step finish).1 = error :: more) : more = [] := by
  have draws := state.draws_step finish
  rw [found] at draws
  cases draws with
  | one => rfl
  | two _ _ _ notEnd => exact absurd finishKind notEnd

theorem errors_parse (tokens : List Token) :
    ∃ finish : Token, finish.kind = .eof ∧
      (parse tokens).2 = Outcome.errors (Reading.start.feed (tokens ++ [finish])).1 :=
  ⟨_, rfl, congrArg Outcome.errors (outcomesOf_eq_feed tokens)⟩

/-- Tokens that are read without an error can be completed to a program. -/
theorem parse_completable {tokens : List Token}
    (clean : Outcome.errors (Reading.start.feed tokens).1 = []) :
    ∃ more, (parse (tokens ++ more)).2 = [] := by
  refine ⟨(Reading.start.feed tokens).2.closing, ?_⟩
  rcases errors_parse (tokens ++ (Reading.start.feed tokens).2.closing) with
    ⟨finish, finishKind, errors⟩
  rw [errors, List.append_assoc, Reading.feed_append, Step.fst_after, Outcome.errors_append, clean,
    Reading.errors_feed_closing finishKind, List.append_nil]

/-- No token behind the first error has an influence on it. -/
theorem head?_errors_parse {before : List Token} {token : Token} {error : ParseError}
    {others : List ParseError} (clean : Outcome.errors (Reading.start.feed before).1 = [])
    (found : Outcome.errors ((Reading.start.feed before).2.step token).1 = error :: others)
    (more : List Token) : (parse (before ++ token :: more)).2.head? = some error := by
  rcases errors_parse (before ++ token :: more) with ⟨finish, _, errors⟩
  rw [errors, List.append_assoc, Reading.feed_append, List.cons_append, Reading.feed_cons]
  simp [clean, found]

/-! ### The places of tokens -/

/-- Each token of a source text but the last one takes some room, and the tokens behind it start where
it ends, or later. -/
theorem pairwise_tokenize (source : String) :
    (tokenize source).Pairwise fun earlier later =>
      earlier.span.start < earlier.span.stop ∧ earlier.span.stop ≤ later.span.start := by
  rcases (segmented_tokenize source).tiles [] rfl with ⟨pieces, tokens, tiles⟩
  rw [tokens, List.pairwise_append]
  refine ⟨?_, List.pairwise_singleton _ _, ?_⟩
  · refine tiles.ordered.imp_of_mem ?_
    intro earlier later earlierMember _ ordered
    exact ⟨tiles.nonempty earlier earlierMember, ordered⟩
  · intro piece member finish isFinish
    have inside := tiles.inside piece member
    simp only [List.nil_append, utf8ByteSize_ofList] at inside
    rw [List.mem_singleton.mp isFinish]
    exact ⟨tiles.nonempty piece member, inside⟩

theorem pairwise_start_tokenize (source : String) :
    (tokenize source).Pairwise fun earlier later => earlier.span.start < later.span.start :=
  (pairwise_tokenize source).imp fun ordered => Nat.lt_of_lt_of_le ordered.1 ordered.2

/-- A token of a source text is known by its span. -/
theorem index_eq_of_span {source : String} {first second : Nat} {token other : Token}
    (firstAt : (tokenize source)[first]? = some token)
    (secondAt : (tokenize source)[second]? = some other) (same : token.span = other.span) :
    first = second := by
  have ordered := List.pairwise_iff_getElem.mp (pairwise_start_tokenize source)
  rcases List.getElem?_eq_some_iff.mp firstAt with ⟨firstInside, rfl⟩
  rcases List.getElem?_eq_some_iff.mp secondAt with ⟨secondInside, rfl⟩
  rcases Nat.lt_trichotomy first second with lt | eq | gt
  · have before := ordered first second firstInside secondInside lt
    rw [same] at before
    omega
  · exact eq
  · have before := ordered second first secondInside firstInside gt
    rw [same] at before
    omega

/-! ### The first error of a source text -/

/-- The source text goes wrong at the token of the given number, counted from 0, with this error. -/
structure GoesWrong (source : String) (error : ParseError) (position : Nat) : Prop where
  blamed : ∃ token, (tokenize source)[position]? = some token ∧ error.Blames token
  only : ∀ other token, (tokenize source)[other]? = some token → token.span = error.span →
    other = position
  /-- What is in front of the token can be completed to a program. -/
  completable : ∃ more, (parse ((tokensBeforeEnd source).take position ++ more)).2 = []
  /-- Whatever follows the token, the first error is this one. -/
  settled : position < (tokensBeforeEnd source).length →
    ∀ more, (parse ((tokensBeforeEnd source).take (position + 1) ++ more)).2.head? = some error

theorem take_of_concat_eq {before after tokens : List Token} {token last : Token}
    (split : tokens ++ [last] = before ++ token :: after) :
    tokens.take before.length = before ∧
      (before.length < tokens.length → tokens.take (before.length + 1) = before ++ [token]) := by
  have lengths := congrArg List.length split
  simp only [List.length_append, List.length_cons, List.length_nil] at lengths
  refine ⟨?_, fun inside => ?_⟩
  · have cut := congrArg (List.take before.length) split
    rwa [List.take_append_of_le_length (by omega), List.take_left] at cut
  · rw [List.append_cons before] at split
    have cut := congrArg (List.take (before ++ [token]).length) split
    rwa [List.take_append_of_le_length (by simp; omega), List.take_left, List.length_append] at cut

/-- A source text goes wrong at the token at which the first error is found. -/
theorem GoesWrong.of_split {source : String} {finish : Nat} {before after : List Token}
    {token : Token} {error : ParseError} {others : List ParseError}
    (tokens : tokenize source = tokensBeforeEnd source ++ [.eof finish])
    (split : tokensBeforeEnd source ++ [.eof finish] = before ++ token :: after)
    (clean : Outcome.errors (Reading.start.feed before).1 = [])
    (found : Outcome.errors ((Reading.start.feed before).2.step token).1 = error :: others) :
    GoesWrong source error before.length := by
  have blames : error.Blames token := by
    apply Reading.blames_of_mem_errors
    rw [found]
    exact List.mem_cons_self
  have placed : (tokenize source)[before.length]? = some token := by
    rw [tokens, split, List.getElem?_append_right (Nat.le_refl _), Nat.sub_self,
      List.getElem?_cons_zero]
  rcases take_of_concat_eq split with ⟨front, through⟩
  refine ⟨⟨token, placed, blames⟩, ?_, ?_, ?_⟩
  · intro other twin twinAt same
    exact index_eq_of_span twinAt placed (same.trans blames.span_eq.symm)
  · rw [front]
    exact parse_completable clean
  · intro inside more
    rw [through inside, List.append_assoc]
    exact head?_errors_parse clean found more

/-- The text goes wrong at its end exactly if it is the beginning of a program. -/
theorem GoesWrong.atEnd_iff {source : String} {error : ParseError} {position : Nat}
    (goesWrong : GoesWrong source error position)
    (inside : position ≤ (tokensBeforeEnd source).length) :
    position = (tokensBeforeEnd source).length ↔
      ∃ more, (parse (tokensBeforeEnd source ++ more)).2 = [] := by
  constructor
  · rintro rfl
    simpa using goesWrong.completable
  · rintro ⟨more, completes⟩
    apply Nat.le_antisymm inside
    apply Nat.le_of_not_lt
    intro before
    have first := goesWrong.settled before ((tokensBeforeEnd source).drop (position + 1) ++ more)
    rw [← List.append_assoc, List.take_append_drop, completes] at first
    cases first

/-- The first error of a source text stands at one token, where the text goes wrong. That is the end
of the source exactly if the text is the beginning of a program, and then no other error follows. -/
theorem goesWrong_of_errors {source : String} {error : ParseError} {rest : List ParseError}
    (fails : (parseText source).2 = error :: rest) :
    ∃ position, GoesWrong source error position ∧
      (position = (tokensBeforeEnd source).length ↔
        ∃ more, (parse (tokensBeforeEnd source ++ more)).2 = []) ∧
      (position = (tokensBeforeEnd source).length → rest = []) := by
  rcases tokenize_eq_append_end source with ⟨finish, tokens, -⟩
  rw [parseText, tokens, parse, outcomesOf_end rfl] at fails
  rcases Reading.exists_first_error fails with
    ⟨before, token, after, others, split, clean, found, later⟩
  have goesWrong := GoesWrong.of_split tokens split clean found
  have lengths := congrArg List.length split
  simp only [List.length_append, List.length_cons, List.length_nil] at lengths
  refine ⟨before.length, goesWrong, goesWrong.atEnd_iff (by omega), fun atEnd => ?_⟩
  -- Nothing is left behind the blamed token, and that is the end of the source.
  have nothing : after = [] := List.eq_nil_of_length_eq_zero (by omega)
  subst nothing
  have isEnd := (List.append_inj' split rfl).2
  cases isEnd
  rw [later, Reading.errors_step_end rfl found]
  rfl

/-- After `let x =` the source ends too early: some tokens complete it, and nothing else is wrong. -/
theorem goesWrong_of_valueless_binding :
    GoesWrong "let x =" (.noExpression .eof ⟨7, 7⟩) 3 ∧
      ∃ more, (parse (tokensBeforeEnd "let x =" ++ more)).2 = [] := by
  have fails : (parseText "let x =").2 = [.noExpression .eof ⟨7, 7⟩] := by decide +kernel
  have finish : (tokenize "let x =")[3]? = some (.eof 7) := by decide +kernel
  rcases goesWrong_of_errors fails with ⟨position, goesWrong, atEnd, -⟩
  cases goesWrong.only 3 _ finish rfl
  exact ⟨goesWrong, atEnd.mp (by decide +kernel)⟩

end Monkey
