import Monkey.Proofs.Evaluation.Frame
import Monkey.Proofs.Evaluation.Sequence
import Monkey.Proofs.Reading.Joining
import Monkey.Proofs.Session.Lines

/-!
# A session as one program

Lines that leave nothing open, neither a statement nor a value on its way out, can be put together to
one text. Run on its own, that text does what its lines do one after the other.
-/

namespace Monkey

/-! ### Programs that follow each other -/

/-- None of the statements of a program, each evaluated where the ones before it have got, gives a
carrier. -/
def Program.Uncut (fuel : Nat) : Program → Machine → Prop
  | [], _ => True
  | stmt :: rest, machine => ∀ value later, stmt.eval (Value.apply fuel) machine = some (value, later) →
      value.isCarrier = false ∧ Program.Uncut fuel rest later

namespace Program

theorem Uncut.isCarrier_eq {fuel : Nat} {program : Program} {last value : Value}
    {machine later : Machine} (uncut : Uncut fuel program machine) (plain : last.isCarrier = false)
    (ends : evalFrom (Value.apply fuel) last program machine = some (value, later)) :
    value.isCarrier = false := by
  induction program generalizing last machine with
  | nil =>
      cases ends
      exact plain
  | cons stmt rest ih =>
      rw [evalFrom, Run.thenPlain] at ends
      split at ends
      · cases ends
      · rename_i first middle ran
        rcases uncut first middle ran with ⟨firstPlain, restUncut⟩
        rw [if_neg (by simp [firstPlain])] at ends
        exact ih restUncut firstPlain ends

theorem eval_append {fuel limit : Nat} (le : fuel ≤ limit) {env : Env}
    {store middle later : Store} {first second : Program} {value result : Value}
    (uncut : Uncut fuel first ⟨env, store⟩)
    (firstEnds : first.eval fuel env store = some (value, middle)) (nonempty : second ≠ [])
    (secondEnds : second.eval limit env middle = some (result, later)) :
    eval limit env (first ++ second) store = some (result, later) := by
  rcases eval_eq_some_iff.mp firstEnds with ⟨firstValue, machine, evaluated, -, rfl⟩
  rcases eval_eq_some_iff.mp secondEnds with ⟨secondValue, last, secondEvaluated, answered⟩
  have plain := uncut.isCarrier_eq rfl evaluated
  have higher := evalFrom_within (Value.apply_within le) first .null evaluated
  have sameEnv : machine.env = env :=
    (@Evaluation.frame ⟨fuel, .stmts .null first, ⟨env, store⟩⟩ firstValue machine evaluated).1
  have sameMachine : machine = ⟨env, machine.store⟩ := by rw [← sameEnv]
  refine eval_eq_some_iff.mpr ⟨secondValue, last, ?_, answered⟩
  rw [evalFrom_append first second rfl, Run.thenPlain_of_plain higher plain,
    evalFrom_eq_of_ne_nil nonempty, sameMachine]
  exact secondEvaluated

end Program

theorem Program.Spelled.ne_nil {bare : Bool} {tokens : List Token} {program : Program}
    (spelled : Program.Spelled bare tokens program) (nonempty : tokens ≠ []) : program ≠ [] :=
  fun empty => nonempty (spelled.nil_of_nil empty)

/-! ### Lines that leave nothing open -/

namespace Session

/-- The session runs lines and becomes the last session. None of the statements of these lines gives
a carrier. -/
inductive Passes : Session → List String → Session → Prop where
  | nil {session : Session} : Passes session [] session
  | cons {session later last : Session} {fuel : Nat} {line output : String} {rest : List String}
      (ran : session.runLine fuel line = some (output, later))
      (uncut : Program.Uncut fuel (parseText line).1 ⟨session.env, session.store⟩)
      (restPasses : Passes later rest last) : Passes session (line :: rest) last

/-- A line that is run behind another one, and both joined, with a line feed between them. -/
theorem runLine_append {session middle last : Session} {fuel limit : Nat} (le : fuel ≤ limit)
    {first second firstOutput output : String} (firstReads : (parseText first).2 = [])
    (firstCloses : Closed (tokensBeforeEnd first))
    (firstRan : session.runLine fuel first = some (firstOutput, middle))
    (uncut : Program.Uncut fuel (parseText first).1 ⟨session.env, session.store⟩)
    {program : Program} (secondReads : parseText second = (program, [])) (nonempty : program ≠ [])
    (secondRan : middle.runLine limit second = some (output, last)) :
    parseText (first ++ "\n" ++ second) = ((parseText first).1 ++ program, []) ∧
      session.runLine limit (first ++ "\n" ++ second) = some (output, last) := by
  have firstProgram : parseText first = ((parseText first).1, []) := by rw [← firstReads]
  have lineFeed : Spacing "\n".toList := by
    intro char member
    rw [List.mem_singleton.mp member]
    rfl
  have whole := parseText_append lineFeed (by decide) firstProgram firstCloses secondReads
  refine ⟨whole, ?_⟩
  rw [runLine_of_reads firstProgram, Option.map_eq_some_iff] at firstRan
  rcases firstRan with ⟨⟨value, store⟩, firstEnds, answered⟩
  cases answered
  rw [runLine_of_reads secondReads, Option.map_eq_some_iff] at secondRan
  rcases secondRan with ⟨⟨result, later⟩, secondEnds, secondAnswered⟩
  cases secondAnswered
  rw [runLine_of_reads whole, Program.eval_append le uncut firstEnds nonempty secondEnds]
  rfl

/-- Lines of which none leaves a statement or a carrier open, with one more line that holds a token,
do in a session what they do when they are joined to one text: with any limit that is high enough,
the text has the output of the last line, and the session becomes the very same one, so that the
same names are bound to the same values. -/
theorem runLine_joined {session middle last : Session} {earlier : List String}
    {line output : String} {fuel : Nat} (reads : ∀ text ∈ earlier, (parseText text).2 = [])
    (closes : ∀ text ∈ earlier, Closed (tokensBeforeEnd text))
    (passes : session.Passes earlier middle) (lineReads : (parseText line).2 = [])
    (nonempty : tokensBeforeEnd line ≠ [])
    (ran : middle.runLine fuel line = some (output, last)) :
    ∃ limit, ∀ higher ≥ limit,
      session.runLine higher ("\n".intercalate (earlier ++ [line])) = some (output, last) := by
  -- The joined text is read as a program that is not empty, and can so be joined again.
  suffices joined : ∃ program limit, program ≠ [] ∧ ∀ higher ≥ limit,
      parseText ("\n".intercalate (earlier ++ [line])) = (program, []) ∧
        session.runLine higher ("\n".intercalate (earlier ++ [line])) = some (output, last) by
    rcases joined with ⟨_, limit, _, joined⟩
    exact ⟨limit, fun higher le => (joined higher le).2⟩
  have lineProgram : parseText line = ((parseText line).1, []) := by rw [← lineReads]
  induction passes with
  | nil =>
      rcases parseText_eq_iff.mp lineProgram with ⟨bare, spelled⟩
      exact ⟨_, fuel, spelled.ne_nil (by simpa using nonempty),
        fun higher le => ⟨lineProgram, runLine_mono le ran⟩⟩
  | @cons session later middle firstFuel first firstOutput rest firstRan uncut _ ih =>
      rcases ih (fun text member => reads text (by simp [member]))
        (fun text member => closes text (by simp [member])) ran
        with ⟨program, limit, programNonempty, restJoined⟩
      refine ⟨(parseText first).1 ++ program, max firstFuel limit, by simp [programNonempty],
        fun higher le => ?_⟩
      rcases restJoined higher (by omega) with ⟨restReads, restRan⟩
      have text : "\n".intercalate (first :: rest ++ [line]) =
          first ++ "\n" ++ "\n".intercalate (rest ++ [line]) :=
        String.intercalate_cons_of_ne_nil (by simp)
      rw [text]
      exact runLine_append (by omega) (reads first (by simp)) (closes first (by simp)) firstRan uncut
        restReads programNonempty restRan

/-- A binding, a line without tokens, and a line that uses the binding. -/
theorem runLine_joined_to_binding :
    ∃ last limit, ∀ higher ≥ limit,
      Session.start.runLine higher "let x = 1;\n\nx + 1" = some ("2", last) := by
  have binds : parseText "let x = 1;" = ([.letBe "x" (.int 1)], []) := by decide +kernel
  have blank : parseText "" = ([], []) := by decide +kernel
  have uses : parseText "x + 1" = ([.expr (.binary (.ident "x") .add (.int 1))], []) := by
    decide +kernel
  have closes : ∀ text ∈ ["let x = 1;", ""], Closed (tokensBeforeEnd text) := by
    unfold Closed
    decide +kernel
  have passes : ∃ middle, Session.start.Passes ["let x = 1;", ""] middle ∧
      ∃ last, middle.runLine 0 "x + 1" = some (Value.code (.int 2), last) := by
    refine ⟨_, .cons (@runLine_of_ends _ 0 _ _ binds .null _ rfl) ?_
      (.cons (@runLine_of_ends _ 0 _ _ blank .null _ rfl) ?_ .nil), _,
      @runLine_of_ends _ 0 _ _ uses (.int 2) _ rfl⟩
    · rw [binds]
      rintro value later ⟨⟩
      exact ⟨rfl, trivial⟩
    · rw [blank]
      trivial
  rcases passes with ⟨middle, passes, last, ran⟩
  have joined := runLine_joined (by simp [binds, blank]) closes passes (by rw [uses])
    (by decide +kernel) ran
  have text : "\n".intercalate (["let x = 1;", ""] ++ ["x + 1"]) = "let x = 1;\n\nx + 1" := by
    decide +kernel
  have code : Value.code (.int 2) = "2" := by decide +kernel
  rw [text, code] at joined
  exact ⟨last, joined⟩

end Session

end Monkey
