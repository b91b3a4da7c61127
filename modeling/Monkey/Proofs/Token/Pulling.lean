import Mathlib.Data.List.ReduceOption
import Monkey.Proofs.Token.Segments

/-!
# Two ways of pulling tokens

A stream can be asked for its tokens in two ways, and in any order. Both of them move the same
cursor, so together they hand out the tokens of the source one after the other, and the last of
these, the end of the source, again and again. One of the two ways comes to an end itself, but only
where it has handed out the end of the source; the other one does not count for that.
-/

namespace Monkey

namespace Cursor

/-- A cursor goes on from its first token to the others, and stays at the last one. -/
theorem tokens_cases (cursor : Cursor) :
    cursor.tokens = cursor.next.1 :: cursor.next.2.tokens ∨
      cursor.tokens = [cursor.next.1] ∧ cursor.next.2.tokens = [cursor.next.1] := by
  rcases cursor with ⟨position, text⟩
  rcases Spacing.or_solid text with spacing | ⟨blank, char, rest, rfl, spacing, solid⟩
  · right
    rw [next_of_spacing spacing, tokens_of_spacing spacing]
    exact ⟨rfl, tokens_of_spacing .nil⟩
  · left
    rw [next_of_solid spacing solid, tokens_of_solid spacing solid]

theorem tokens_ne_nil (cursor : Cursor) : cursor.tokens ≠ [] :=
  cursor.segmented.ne_nil

/-- The token that is so many places behind the first one; the last token is behind all others for
ever. -/
def tokenAt? (cursor : Cursor) (count : Nat) : Option Token :=
  cursor.tokens[min count (cursor.tokens.length - 1)]?

theorem tokenAt?_zero (cursor : Cursor) : cursor.tokenAt? 0 = some cursor.next.1 := by
  rcases cursor.tokens_cases with more | ⟨last, -⟩
  · simp [tokenAt?, more]
  · simp [tokenAt?, last]

theorem tokenAt?_succ (cursor : Cursor) (count : Nat) :
    cursor.tokenAt? (count + 1) = cursor.next.2.tokenAt? count := by
  rcases cursor.tokens_cases with more | ⟨last, stays⟩
  · have nonempty := List.length_pos_iff.mpr cursor.next.2.tokens_ne_nil
    have place : min (count + 1) cursor.next.2.tokens.length =
        min count (cursor.next.2.tokens.length - 1) + 1 := by omega
    rw [tokenAt?, tokenAt?, more, List.length_cons, Nat.add_sub_cancel, place,
      List.getElem?_cons_succ]
  · simp [tokenAt?, last, stays]

/-- The end of the source is the last token and all that are behind it. -/
theorem kind_tokenAt? {cursor : Cursor} {count : Nat} {token : Token}
    (found : cursor.tokenAt? count = some token) :
    token.kind = .eof ↔ cursor.tokens.length ≤ count + 1 := by
  rcases cursor.segmented.ends with ⟨front, finish, tokens, noEnd⟩
  rw [tokenAt?, tokens, List.length_append, List.length_singleton, Nat.add_sub_cancel] at found
  rw [tokens, List.length_append, List.length_singleton, Nat.add_le_add_iff_right]
  rcases Nat.lt_or_ge count front.length with before | behind
  · rw [Nat.min_eq_left (Nat.le_of_lt before), List.getElem?_append_left before] at found
    have notEnd := noEnd token (List.mem_of_getElem? found)
    exact iff_of_false notEnd (Nat.not_le.mpr before)
  · rw [Nat.min_eq_right behind, List.getElem?_concat_length] at found
    cases found
    exact iff_of_true rfl behind

end Cursor

namespace Stream

/-- The two ways to ask a stream for a token. -/
inductive Call where
  | nextToken
  | pull
deriving DecidableEq

/-- The answer to a call, and the stream after it. -/
def answer (stream : Stream) : Call → Option Token × Stream
  | .nextToken => (some stream.nextToken.1, stream.nextToken.2)
  | .pull => stream.pull?

/-- The answers to calls that are made one after the other. -/
def answers (stream : Stream) : List Call → List (Option Token)
  | [] => []
  | call :: later => (stream.answer call).1 :: (stream.answer call).2.answers later

/-- The tokens among the answers. -/
def handedOut (stream : Stream) (calls : List Call) : List Token :=
  (stream.answers calls).reduceOption

/-- A call is answered with the next token, unless it is one of the way that has ended. -/
theorem answer_cases (stream : Stream) (call : Call) :
    call = .pull ∧ stream.finished = true ∧ stream.answer call = (none, stream) ∨
      ¬ (call = .pull ∧ stream.finished = true) ∧
        stream.answer call = (some stream.cursor.next.1, ⟨stream.cursor.next.2,
          stream.finished || (call = .pull && stream.cursor.next.1.kind = .eof)⟩) := by
  cases call with
  | nextToken => exact .inr ⟨nofun, by simp [answer, nextToken]⟩
  | pull =>
      cases finished : stream.finished with
      | true => exact .inl ⟨rfl, rfl, by simp [answer, pull?, finished]⟩
      | false => exact .inr ⟨nofun, by simp [answer, pull?, finished]⟩

theorem length_answers (stream : Stream) (calls : List Call) :
    (stream.answers calls).length = calls.length := by
  induction calls generalizing stream with
  | nil => rfl
  | cons call later ih => rw [answers, List.length_cons, List.length_cons, ih]

/-- Whatever the calls are, the tokens come in their order. -/
theorem tokenAt?_of_handedOut {stream : Stream} {calls : List Call} {count : Nat} {token : Token}
    (found : (stream.handedOut calls)[count]? = some token) :
    stream.cursor.tokenAt? count = some token := by
  induction calls generalizing stream count with
  | nil => simp [handedOut, answers] at found
  | cons call later ih =>
      rcases stream.answer_cases call with ⟨-, -, answered⟩ | ⟨-, answered⟩
      · rw [handedOut, answers, answered, List.reduceOption_cons_of_none] at found
        exact ih found
      · rw [handedOut, answers, answered, List.reduceOption_cons_of_some] at found
        cases count with
        | zero =>
            rw [Cursor.tokenAt?_zero]
            exact found
        | succ count =>
            rw [Cursor.tokenAt?_succ]
            exact ih found

/-- The call at a place is one to `pull?`, and it is answered with the end of the source. -/
def PullsEnd (stream : Stream) (calls : List Call) (place : Nat) : Prop :=
  calls[place]? = some .pull ∧
    ∃ token, (stream.answers calls)[place]? = some (some token) ∧ token.kind = .eof

/-- The way that can end has ended where it had before, or where it has just handed out the end. -/
theorem finished_answer (stream : Stream) (call : Call) (later : List Call) :
    (stream.answer call).2.finished = true ↔
      stream.finished = true ∨ stream.PullsEnd (call :: later) 0 := by
  rcases stream.answer_cases call with ⟨-, finished, answered⟩ | ⟨-, answered⟩
  · simp [answered, finished]
  · simp [PullsEnd, answers, answered]

/-- A call gets no token where it is one of the way that has ended, before the calls or in them. -/
theorem answers_eq_none_iff (stream : Stream) (calls : List Call) (place : Nat) :
    (stream.answers calls)[place]? = some none ↔
      calls[place]? = some .pull ∧
        (stream.finished = true ∨ ∃ earlier < place, stream.PullsEnd calls earlier) := by
  induction calls generalizing stream place with
  | nil => simp [answers]
  | cons call later ih =>
      cases place with
      | zero =>
          rcases stream.answer_cases call with ⟨rfl, finished, answered⟩ | ⟨more, answered⟩
          · simp [answers, answered, finished]
          · simp [answers, answered, more]
      | succ place =>
          have shifted : (∃ earlier < place + 1, stream.PullsEnd (call :: later) earlier) ↔
              stream.PullsEnd (call :: later) 0 ∨
                ∃ earlier < place, (stream.answer call).2.PullsEnd later earlier :=
            Nat.exists_lt_succ_left
          rw [shifted, ← or_assoc, ← stream.finished_answer call later]
          exact ih _ place

/-- However the calls are mixed, each is answered. The tokens that are handed out are those of the
source, in order, and from the end of the source on this one for ever. A call gets none if it is to
`pull?` and an earlier call to `pull?` has got the end of the source. -/
theorem answers_ofString (source : String) (calls : List Call) :
    ((ofString source).answers calls).length = calls.length ∧
      (∀ count token, ((ofString source).handedOut calls)[count]? = some token →
        (tokenize source)[min count ((tokenize source).length - 1)]? = some token ∧
          (token.kind = .eof ↔ (tokenize source).length ≤ count + 1)) ∧
      ∀ place, ((ofString source).answers calls)[place]? = some none ↔
        calls[place]? = some .pull ∧
          ∃ earlier < place, (ofString source).PullsEnd calls earlier := by
  refine ⟨length_answers _ _, fun count token handed => ?_, fun place => ?_⟩
  · have found := tokenAt?_of_handedOut handed
    exact ⟨found, Cursor.kind_tokenAt? found⟩
  · rw [answers_eq_none_iff]
    simp [ofString]

/-- After the name both ways hand out the end of the source, and then only one of them does. -/
theorem answers_ofString_mixed :
    ((ofString "a ").handedOut [.pull, .nextToken, .pull, .pull, .nextToken])[3]? = some (.eof 2) ∧
      (tokenize "a ")[min 3 ((tokenize "a ").length - 1)]? = some (.eof 2) ∧
      ∃ earlier < 3,
        (ofString "a ").PullsEnd [.pull, .nextToken, .pull, .pull, .nextToken] earlier := by
  have handed : ((ofString "a ").handedOut [.pull, .nextToken, .pull, .pull, .nextToken])[3]? =
      some (.eof 2) := by
    decide +kernel
  have refused : ((ofString "a ").answers [.pull, .nextToken, .pull, .pull, .nextToken])[3]? =
      some none := by
    decide +kernel
  have answered := answers_ofString "a " [.pull, .nextToken, .pull, .pull, .nextToken]
  exact ⟨handed, (answered.2.1 3 _ handed).1, ((answered.2.2 3).mp refused).2⟩

end Stream

end Monkey
