import Monkey.Proofs.Evaluation.Holdings
import Monkey.Proofs.Likeness.Value
import Monkey.Proofs.Session.Carriers

/-!
# Being the same

Every object that a session binds to a name has been made by one evaluation that took place in it, and
no other evaluation has made an object of the same identity. Two names are therefore equal if they are
bound to one thing: to equal integers, to the same truth value, both to null, or to the object that
some evaluation has made.
-/

namespace Monkey

/-! ### What a session goes through -/

/-- The evaluation of a program in a session. -/
def Session.evaluation (session : Session) (fuel : Nat) (program : Program) : Evaluation :=
  ⟨fuel, .program program, ⟨session.env, session.store⟩⟩

theorem Session.result?_of_eval {session : Session} {fuel : Nat} {program : Program} {value : Value}
    {later : Store} (ends : program.eval fuel session.env session.store = some (value, later)) :
    ∃ last, (session.evaluation fuel program).result? = some (value, last) ∧ last.store = later := by
  rcases Option.map_eq_some_iff.mp ends with ⟨⟨result, last⟩, ran, answered⟩
  cases answered
  exact ⟨last, ran, rfl⟩

/-- The sessions that these evaluations of programs lead to, one after the other. -/
inductive Session.ReachedThrough : List Evaluation → Session → Prop where
  | start : ReachedThrough [] .start
  | evaluated {history : List Evaluation} {session : Session} {fuel : Nat} {program : Program}
      {value : Value} {later : Store} (reached : ReachedThrough history session)
      (ends : program.eval fuel session.env session.store = some (value, later)) :
      ReachedThrough (history ++ [session.evaluation fuel program]) { session with store := later }

/-- The evaluations that take place in the last one of these evaluations of programs. -/
inductive Evaluation.ReachedThrough : List Evaluation → Evaluation → Prop where
  | within {history : List Evaluation} {session : Session} {evaluation : Evaluation}
      (reached : session.ReachedThrough history) (fuel : Nat) (program : Program)
      (contains : (session.evaluation fuel program).Contains evaluation) :
      ReachedThrough (history ++ [session.evaluation fuel program]) evaluation

/-- The states that evaluations find or leave in the last one of these evaluations of programs. -/
inductive Machine.ReachedThrough : List Evaluation → Machine → Prop where
  | found {history : List Evaluation} {evaluation : Evaluation}
      (reached : evaluation.ReachedThrough history) : ReachedThrough history evaluation.machine
  | left {history : List Evaluation} {evaluation : Evaluation} {value : Value} {later : Machine}
      (reached : evaluation.ReachedThrough history)
      (ends : evaluation.result? = some (value, later)) : ReachedThrough history later

theorem Session.ReachedThrough.reached {history : List Evaluation} {session : Session}
    (reached : session.ReachedThrough history) : session.Reached := by
  induction reached with
  | start => exact .start
  | evaluated _ ends ih => exact .evaluated ih ends

theorem Evaluation.ReachedThrough.reached {history : List Evaluation} {evaluation : Evaluation}
    (reached : evaluation.ReachedThrough history) : evaluation.Reached := by
  cases reached with
  | within reached fuel program contains =>
      induction contains with
      | refl => exact .program reached.reached fuel program
      | tail _ starts ih => exact .started ih starts

/-- What a contract asks for holds wherever a session gets. -/
theorem Machine.ReachedThrough.pre {contract : Contract}
    (initial : contract.pre ⟨Session.start.env, Session.start.store⟩) {history : List Evaluation}
    {machine : Machine} (reached : machine.ReachedThrough history) : contract.pre machine := by
  cases reached with
  | found reached => exact (Contract.admits_of_reached initial reached.reached).pre
  | left reached ends =>
      have admits := Contract.admits_of_reached initial reached.reached
      exact contract.settled admits.pre (admits.post ends)

/-! ### One maker for an object -/

namespace Evaluation

/-- The evaluation takes place in one of these. -/
def TakesPlaceIn (history : List Evaluation) (evaluation : Evaluation) : Prop :=
  ∃ root ∈ history, root.Contains evaluation

/-- No two evaluations make objects of the same identity. -/
def OneMaker (history : List Evaluation) : Prop :=
  ∀ ⦃first second : Evaluation⦄ ⦃value other : Value⦄ ⦃identity : Nat⦄,
    first.TakesPlaceIn history → second.TakesPlaceIn history → first.Makes value →
      second.Makes other → value.identity? = some identity → other.identity? = some identity →
        first = second

section

variable {history : List Evaluation} {root evaluation : Evaluation}

theorem not_takesPlaceIn_nil : ¬evaluation.TakesPlaceIn [] := by
  simp [TakesPlaceIn]

theorem takesPlaceIn_append_singleton :
    evaluation.TakesPlaceIn (history ++ [root]) ↔
      evaluation.TakesPlaceIn history ∨ root.Contains evaluation := by
  simp [TakesPlaceIn, or_and_right, exists_or]

/-- The objects of one more evaluation are others, if it starts with identities that are fresh. -/
theorem OneMaker.append (one : OneMaker history)
    (below : ∀ (maker : Evaluation) (value : Value) (identity : Nat),
      maker.TakesPlaceIn history → maker.Makes value → value.identity? = some identity →
        identity < root.machine.store.fresh) :
    OneMaker (history ++ [root]) := by
  intro first second value other identity inFirst inSecond makes otherMakes isIdentity isOther
  rcases takesPlaceIn_append_singleton.mp inFirst with inFirst | inFirst <;>
    rcases takesPlaceIn_append_singleton.mp inSecond with inSecond | inSecond
  · exact one inFirst inSecond makes otherMakes isIdentity isOther
  · have less := below first value identity inFirst makes isIdentity
    have least := inSecond.fresh_le otherMakes isOther
    omega
  · have less := below second other identity inSecond otherMakes isOther
    have least := inFirst.fresh_le makes isIdentity
    omega
  · exact root.maker_unique inFirst inSecond makes otherMakes isIdentity isOther

end

end Evaluation

namespace Session.ReachedThrough

variable {history : List Evaluation} {session : Session}

theorem lt_fresh (reached : session.ReachedThrough history) :
    ∀ (maker : Evaluation) (value : Value) (identity : Nat), maker.TakesPlaceIn history →
      maker.Makes value → value.identity? = some identity → identity < session.store.fresh := by
  induction reached with
  | start =>
      intro maker value identity takesPlace
      cases Evaluation.not_takesPlaceIn_nil takesPlace
  | evaluated _ ends ih =>
      intro maker value identity takesPlace makes isIdentity
      rcases result?_of_eval ends with ⟨last, ended, rfl⟩
      rcases Evaluation.takesPlaceIn_append_singleton.mp takesPlace with earlier | contains
      · have grows := (Task.later_of_run ended).grows.fresh
        exact Nat.lt_of_lt_of_le (ih maker value identity earlier makes isIdentity) grows
      · exact contains.lt_fresh makes isIdentity ended

theorem oneMaker (reached : session.ReachedThrough history) : Evaluation.OneMaker history := by
  induction reached with
  | start =>
      intro first second value other identity takesPlace
      cases Evaluation.not_takesPlaceIn_nil takesPlace
  | evaluated reached _ ih => exact ih.append reached.lt_fresh

end Session.ReachedThrough

theorem Evaluation.ReachedThrough.oneMaker {history : List Evaluation} {evaluation : Evaluation}
    (reached : evaluation.ReachedThrough history) : OneMaker history := by
  cases reached with
  | within reached => exact reached.oneMaker.append reached.lt_fresh

theorem Machine.ReachedThrough.oneMaker {history : List Evaluation} {machine : Machine}
    (reached : machine.ReachedThrough history) : Evaluation.OneMaker history := by
  cases reached with
  | found reached | left reached => exact reached.oneMaker

/-! ### Objects that are bound have been made -/

/-- The object has been made in one of these evaluations. -/
def Value.MadeIn (history : List Evaluation) (value : Value) : Prop :=
  ∃ maker : Evaluation, maker.TakesPlaceIn history ∧ maker.Makes value

section

variable {history : List Evaluation}

theorem Evaluation.Makes.holds {maker : Evaluation} {value : Value} (makes : maker.Makes value)
    (takesPlace : maker.TakesPlaceIn history) : value.Holds (Value.MadeIn history) := by
  rcases makes.ends with ⟨identity, later, isIdentity, -⟩
  exact Value.holds_of_held ⟨maker, takesPlace, makes⟩ (Option.isSome_of_eq_some isIdentity)

theorem Session.ReachedThrough.binds {held : Value → Prop} {session : Session}
    (reached : session.ReachedThrough history) :
    (∀ (maker : Evaluation) (value : Value), maker.TakesPlaceIn history → maker.Makes value →
      value.Holds held) →
      session.store.Binds (Value.Holds held) := by
  induction reached with
  | start => exact fun _ => Store.binds_start _
  | @evaluated history session fuel program _ _ _ ends ih =>
      intro makes
      rcases result?_of_eval ends with ⟨last, ended, rfl⟩
      have before : session.store.Binds (Value.Holds held) := by
        apply ih
        intro maker value takesPlace
        exact makes maker value (Evaluation.takesPlaceIn_append_singleton.mpr (.inl takesPlace))
      have holds : (session.evaluation fuel program).Holds held := ⟨before, nofun⟩
      refine (Evaluation.leaves_of_holds _ (fun maker value contains => ?_) holds ended).1
      exact makes maker value (Evaluation.takesPlaceIn_append_singleton.mpr (.inr contains))

theorem Evaluation.ReachedThrough.takesPlaceIn {evaluation inner : Evaluation}
    (reached : evaluation.ReachedThrough history) (contains : evaluation.Contains inner) :
    inner.TakesPlaceIn history := by
  cases reached with
  | within _ _ _ within => exact takesPlaceIn_append_singleton.mpr (.inr (within.trans contains))

theorem Evaluation.ReachedThrough.holds {evaluation : Evaluation}
    (reached : evaluation.ReachedThrough history) : evaluation.Holds (Value.MadeIn history) := by
  cases reached with
  | within reached fuel program contains =>
      refine contains.holds (fun maker value inside makes => ?_) ⟨?_, nofun⟩
      · exact makes.holds (takesPlaceIn_append_singleton.mpr (.inr inside))
      · apply reached.binds
        intro maker value takesPlace makes
        exact makes.holds (takesPlaceIn_append_singleton.mpr (.inl takesPlace))

/-- All objects that are bound where a session gets have been made in it. -/
theorem Machine.ReachedThrough.binds {machine : Machine} (reached : machine.ReachedThrough history) :
    machine.store.Binds (Value.Holds (Value.MadeIn history)) := by
  cases reached with
  | found reached => exact reached.holds.binds
  | left reached ends =>
      refine (Evaluation.leaves_of_holds _ (fun maker value contains makes => ?_)
        reached.holds ends).1
      exact makes.holds (reached.takesPlaceIn contains)

end

/-! ### Equality of values -/

/-- Two values are one thing: equal integers, the same truth value, null twice, or the object that an
evaluation has made. -/
inductive Value.SameThing (history : List Evaluation) : Value → Value → Prop where
  | int (number : Int) : SameThing history (.int number) (.int number)
  | bool (truth : Bool) : SameThing history (.bool truth) (.bool truth)
  | null : SameThing history .null .null
  | object {maker : Evaluation} {value other : Value} (takesPlace : maker.TakesPlaceIn history)
      (makes : maker.Makes value) (makesOther : maker.Makes other) : SameThing history value other

/-- The environment that a function has been made in. -/
def Value.captured? : Value → Option Env
  | .fn _ _ _ env => some env
  | _ => none

namespace Value

variable {history : List Evaluation} {value other : Value}

theorem same_self (plain : value.isCarrier = false) : value.same value = true := by
  cases value with
  | returned | error => cases plain
  | _ => simp [same]

theorem cases_of_same (isSame : value.same other = true) :
    value.Atomic ∧ value = other ∨
      ∃ identity, value.identity? = some identity ∧ other.identity? = some identity := by
  cases value with
  | int number =>
      cases other with
      | int => exact .inl ⟨.int _, congrArg Value.int (of_decide_eq_true isSame)⟩
      | _ => cases isSame
  | bool truth =>
      cases other with
      | bool => exact .inl ⟨.bool _, congrArg Value.bool (of_decide_eq_true isSame)⟩
      | _ => cases isSame
  | null =>
      cases other with
      | null => exact .inl ⟨.null, rfl⟩
      | _ => cases isSame
  | str identity =>
      cases other with
      | str => exact .inr ⟨identity, rfl, congrArg some (of_decide_eq_true isSame).symm⟩
      | _ => cases isSame
  | fn identity =>
      cases other with
      | fn => exact .inr ⟨identity, rfl, congrArg some (of_decide_eq_true isSame).symm⟩
      | _ => cases isSame
  | builtin identity =>
      cases other with
      | builtin => exact .inr ⟨identity, rfl, congrArg some (of_decide_eq_true isSame).symm⟩
      | _ => cases isSame
  | returned | error => cases other <;> cases isSame

theorem atomic_or_identity (plain : value.isCarrier = false) :
    value.Atomic ∨ ∃ identity, value.identity? = some identity := by
  cases value with
  | int => exact .inl (.int _)
  | bool => exact .inl (.bool _)
  | null => exact .inl .null
  | str | fn | builtin => exact .inr ⟨_, rfl⟩
  | returned | error => cases plain

theorem Atomic.sameThing (atomic : value.Atomic) : value.SameThing history value := by
  cases atomic with
  | int number => exact .int number
  | bool truth => exact .bool truth
  | null => exact .null

theorem SameThing.eq (sameThing : value.SameThing history other) : value = other := by
  cases sameThing with
  | int | bool | null => rfl
  | object _ makes makesOther => exact makes.unique makesOther

theorem SameThing.symm (sameThing : value.SameThing history other) :
    other.SameThing history value := by
  cases sameThing with
  | int number => exact .int number
  | bool truth => exact .bool truth
  | null => exact .null
  | object takesPlace makes makesOther => exact .object takesPlace makesOther makes

theorem SameThing.trans {third : Value} (sameThing : value.SameThing history other)
    (next : other.SameThing history third) : value.SameThing history third := by
  rwa [sameThing.eq]

/-- The test for being the same finds out whether two values are one thing. -/
theorem same_iff_sameThing (one : Evaluation.OneMaker history) (plain : value.isCarrier = false)
    (holds : value.Holds (MadeIn history)) (otherHolds : other.Holds (MadeIn history)) :
    value.same other = true ↔ value.SameThing history other := by
  constructor
  · intro isSame
    rcases cases_of_same isSame with ⟨atomic, rfl⟩ | ⟨identity, isIdentity, isOther⟩
    · exact atomic.sameThing
    · rcases held_of_holds holds isIdentity with ⟨maker, takesPlace, makes⟩
      rcases held_of_holds otherHolds isOther with ⟨otherMaker, otherTakesPlace, otherMakes⟩
      cases one takesPlace otherTakesPlace makes otherMakes isIdentity isOther
      exact .object takesPlace makes otherMakes
  · intro sameThing
    cases sameThing.eq
    exact same_self plain

end Value

/-! ### Comparing names -/

namespace Machine

/-- A name that is bound in the current environment or in one around it. -/
def BoundName (machine : Machine) : Type :=
  { name : String // (machine.store.get? machine.env name).isSome }

def BoundName.value {machine : Machine} (name : machine.BoundName) : Value :=
  (machine.store.get? machine.env name.1).get name.2

/-- A comparison of two names gives this truth value, however deep calls may nest. -/
def Compares (machine : Machine) (left : String) (op : BinaryOp) (right : String) (truth : Bool) :
    Prop :=
  ∀ fuel, ∃ later,
    Evaluation.result? ⟨fuel, .expr (.binary (.ident left) op (.ident right)), machine⟩ =
      some (.bool truth, later)

section

variable {machine : Machine} {history : List Evaluation}

theorem BoundName.found (name : machine.BoundName) :
    machine.store.get? machine.env name.1 = some name.value :=
  (Option.some_get name.2).symm

theorem BoundName.of_found {name : String} {value : Value}
    (found : machine.store.get? machine.env name = some value) :
    ∃ bound : machine.BoundName, bound.value = value :=
  ⟨⟨name, Option.isSome_of_eq_some found⟩, Option.get_of_eq_some _ found⟩

theorem BoundName.ran (name : machine.BoundName) (fuel : Nat) :
    Expr.eval (Value.apply fuel) (.ident name.1) machine = some (name.value, machine) :=
  Run.resolve_of_bound name.found

theorem BoundName.plain (reached : machine.ReachedThrough history) (name : machine.BoundName) :
    name.value.isCarrier = false := by
  have pre : Contract.plain.pre machine := reached.pre Store.plain_start
  exact Store.Plain.get? pre name.found

theorem BoundName.same_iff (reached : machine.ReachedThrough history)
    (left right : machine.BoundName) :
    left.value.same right.value = true ↔ left.value.SameThing history right.value :=
  Value.same_iff_sameThing reached.oneMaker (left.plain reached) (reached.binds.get? left.found)
    (reached.binds.get? right.found)

theorem compares_of_apply (reached : machine.ReachedThrough history) (left right : machine.BoundName)
    {op : BinaryOp} {truth : Bool}
    (applied : ∀ fresh, op.apply fresh left.value right.value = .ok (.bool truth)) :
    machine.Compares left.1 op right.1 truth := by
  intro fuel
  have ran : Expr.eval (Value.apply fuel) (.binary (.ident left.1) op (.ident right.1)) machine =
      Run.answer (fun fresh => op.apply fresh left.value right.value) machine :=
    (Run.thenPlain_of_plain (left.ran fuel) (left.plain reached)).trans
      (Run.thenPlain_of_plain (right.ran fuel) (right.plain reached))
  refine ⟨machine.issue, ran.trans ?_⟩
  simp only [Run.answer, Store.answer, applied]
  rfl

theorem Compares.unique {left right : String} {op : BinaryOp} {truth other : Bool}
    (compares : machine.Compares left op right truth)
    (otherwise : machine.Compares left op right other) : truth = other := by
  rcases compares 0 with ⟨later, ends⟩
  rcases otherwise 0 with ⟨otherLater, otherEnds⟩
  cases ends.symm.trans otherEnds
  rfl

/-- Names are equal if they are bound to one thing. -/
theorem compares_equal_iff (reached : machine.ReachedThrough history)
    (left right : machine.BoundName) :
    machine.Compares left.1 .equal right.1 true ↔ left.value.SameThing history right.value := by
  have compares := compares_of_apply reached left right fun fresh =>
    BinaryOp.apply_equal fresh left.value right.value
  rw [← BoundName.same_iff reached]
  constructor
  · intro equal
    exact compares.unique equal
  · intro isSame
    rwa [isSame] at compares

/-- Wherever a session gets, names are equal just if they are bound to one thing. Then their values
have the same type and the same texts, and functions have captured the same environment. An object that
a name is bound to has been made by a single evaluation of the session. -/
theorem ReachedThrough.compares_bound_names (reached : machine.ReachedThrough history) :
    (∀ x y : machine.BoundName, ∃ same : Bool,
      machine.Compares x.1 .equal y.1 same ∧ machine.Compares x.1 .notEqual y.1 (!same) ∧
      (same = true ↔ x.value.SameThing history y.value) ∧
      (same = true → x.value.typeName = y.value.typeName ∧ x.value.text = y.value.text ∧
        x.value.code = y.value.code ∧ x.value.captured? = y.value.captured?)) ∧
    Equivalence (fun x y : machine.BoundName => machine.Compares x.1 .equal y.1 true) ∧
    ∀ x : machine.BoundName, x.value.Atomic ∨
      ∃! maker : Evaluation, maker.TakesPlaceIn history ∧ maker.Makes x.value := by
  refine ⟨fun x y => ?_, ?_, fun x => ?_⟩
  · refine ⟨x.value.same y.value, ?_, ?_, x.same_iff reached y, ?_⟩
    · exact compares_of_apply reached x y fun fresh => BinaryOp.apply_equal fresh x.value y.value
    · exact compares_of_apply reached x y fun fresh => BinaryOp.apply_notEqual fresh x.value y.value
    · intro isSame
      rw [((x.same_iff reached y).mp isSame).eq]
      exact ⟨rfl, rfl, rfl, rfl⟩
  · simp only [compares_equal_iff reached]
    refine ⟨fun x => ?_, fun sameThing => sameThing.symm, fun first second => first.trans second⟩
    exact (x.same_iff reached x).mp (Value.same_self (x.plain reached))
  · rcases Value.atomic_or_identity (x.plain reached) with atomic | ⟨identity, isIdentity⟩
    · exact .inl atomic
    · rcases Value.held_of_holds (reached.binds.get? x.found) isIdentity with
        ⟨maker, takesPlace, makes⟩
      refine .inr ⟨maker, ⟨takesPlace, makes⟩, ?_⟩
      rintro other ⟨otherTakesPlace, otherMakes⟩
      exact reached.oneMaker otherTakesPlace takesPlace otherMakes makes isIdentity isIdentity

/-- A string that has been passed and returned is the same; one that reads alike is another. -/
theorem compares_passed_string : ∃ (history : List Evaluation) (machine : Machine)
    (s t u : machine.BoundName), machine.ReachedThrough history ∧
      s.value.text = "a" ∧ t.value.text = "a" ∧ u.value.text = "a" ∧
      machine.Compares s.1 .equal t.1 true ∧ s.value.SameThing history t.value ∧
      machine.Compares s.1 .equal u.1 false ∧ ¬s.value.SameThing history u.value := by
  obtain ⟨later, ends, sFound, tFound, uFound⟩ : ∃ later,
      (Task.program [.letBe "f" (.fn ["x"] [.ret (.ident "x")]), .letBe "s" (.str "a"),
        .letBe "t" (.call (.ident "f") [.ident "s"]), .letBe "u" (.str "a")]).run 1
          ⟨Session.start.env, Session.start.store⟩ = some (.null, later) ∧
      later.store.get? later.env "s" = some (.str 1 "a") ∧
      later.store.get? later.env "t" = some (.str 1 "a") ∧
      later.store.get? later.env "u" = some (.str 2 "a") := ⟨_, rfl, rfl, rfl, rfl⟩
  rcases BoundName.of_found sFound with ⟨s, sValue⟩
  rcases BoundName.of_found tFound with ⟨t, tValue⟩
  rcases BoundName.of_found uFound with ⟨u, uValue⟩
  obtain ⟨history, reached⟩ : ∃ history, later.ReachedThrough history :=
    ⟨_, .left (.within .start 1 _ (.refl _)) ends⟩
  rcases reached.compares_bound_names with ⟨compares, equivalence, -⟩
  rcases compares s u with ⟨another, unequal, -, others, -⟩
  have passed : s.value.SameThing history t.value := by
    have self := (compares_equal_iff reached s s).mp (equivalence.refl s)
    rwa [tValue, ← sValue]
  have different : ¬s.value.SameThing history u.value := by
    intro thing
    have same := thing.eq
    rw [sValue, uValue] at same
    cases same
  obtain rfl : another = false := by
    rw [← Bool.not_eq_true, others]
    exact different
  refine ⟨history, later, s, t, u, reached, ?_, ?_, ?_, ?_, passed, unequal, different⟩
  · exact congrArg Value.text sValue
  · exact congrArg Value.text tValue
  · exact congrArg Value.text uValue
  · exact (compares_equal_iff reached s t).mpr passed

end

end Machine

end Monkey
