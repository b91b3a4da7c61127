import Monkey.Proofs.Evaluation.Parts

/-!
# Where objects come from

An object is made by a single evaluation: of a string literal, of two strings that are joined, of a
function literal, of a call of the builtin function that names types, or of an unbound name of a builtin
function. All that happens to it from then on is that it is bound, passed on and returned. Its identity
says which evaluation has made it.
-/

namespace Monkey

/-- The identity of an object. -/
def Value.identity? : Value → Option Nat
  | .str identity _ | .fn identity _ _ _ | .builtin identity _ => some identity
  | _ => none

namespace Evaluation

/-- The evaluation makes the object, and that is its result. -/
inductive Makes : Evaluation → Value → Prop where
  | str {fuel : Nat} {machine : Machine} {text : String} :
      Makes ⟨fuel, .expr (.str text), machine⟩ (.str machine.store.fresh text)
  | joined {fuel leftIdentity rightIdentity : Nat} {machine middle later : Machine}
      {left right : Expr} {leftText rightText : String}
      (leftRan : (Task.expr left).run fuel machine = some (.str leftIdentity leftText, middle))
      (rightRan : (Task.expr right).run fuel middle = some (.str rightIdentity rightText, later)) :
      Makes ⟨fuel, .expr (.binary left .add right), machine⟩
        (.str later.store.fresh (leftText ++ rightText))
  | fn {fuel : Nat} {machine : Machine} {params : List String} {body : List Stmt} :
      Makes ⟨fuel, .expr (.fn params body), machine⟩
        (.fn machine.store.fresh params body machine.env)
  | typeText {fuel identity : Nat} {machine : Machine} {arg : Value} :
      Makes ⟨fuel + 1, .apply (.builtin identity .typeOf) [arg], machine⟩
        (.str machine.store.fresh arg.typeName.text)
  | builtin {fuel : Nat} {machine : Machine} {name : String} {builtin : Builtin}
      (unbound : machine.store.get? machine.env name = none)
      (isName : Builtin.ofName? name = some builtin) :
      Makes ⟨fuel, .expr (.ident name), machine⟩ (.builtin machine.store.fresh builtin)

/-! ### One evaluation for an identity -/

namespace Makes

variable {evaluation : Evaluation} {value : Value}

/-- The identity of an object is the last one that is handed out in the evaluation that makes it. -/
theorem ends (makes : evaluation.Makes value) : ∃ identity later,
    value.identity? = some identity ∧ evaluation.result? = some (value, later) ∧
      evaluation.machine.store.fresh ≤ identity ∧ later.store.fresh = identity + 1 := by
  cases makes with
  | str | fn | typeText => exact ⟨_, _, rfl, rfl, Nat.le_refl _, rfl⟩
  | @joined _ _ _ machine middle later _ _ _ _ leftRan rightRan =>
      have least := Nat.le_trans (Task.later_of_run leftRan).grows.fresh
        (Task.later_of_run rightRan).grows.fresh
      refine ⟨_, later.issue, rfl, ?_, least, rfl⟩
      exact (Run.thenPlain_of_plain leftRan rfl).trans (Run.thenPlain_of_plain rightRan rfl)
  | @builtin _ machine name builtin unbound isName =>
      refine ⟨_, machine.issue, rfl, (Run.resolve_of_unbound unbound).trans ?_, Nat.le_refl _, rfl⟩
      simp only [Run.answer, Store.answer, isName]
      rfl

theorem unique {other : Value} (makes : evaluation.Makes value) (makesOther : evaluation.Makes other) :
    value = other := by
  rcases makes.ends with ⟨_, _, _, ends, _⟩
  rcases makesOther.ends with ⟨_, _, _, otherEnds, _⟩
  cases ends.symm.trans otherEnds
  rfl

/-- The parts of an evaluation that makes an object end before the object gets its identity. -/
theorem part_ended (makes : evaluation.Makes value) {part : Evaluation}
    (starts : evaluation.Starts part) {identity : Nat} (isIdentity : value.identity? = some identity) :
    ∃ result last, part.result? = some (result, last) ∧ last.store.fresh ≤ identity := by
  cases makes with
  | str | fn | typeText | builtin => cases starts
  | joined leftRan rightRan =>
      cases isIdentity
      cases starts with
      | left => exact ⟨_, _, leftRan, (Task.later_of_run rightRan).grows.fresh⟩
      | right ran =>
          cases leftRan.symm.trans ran
          exact ⟨_, _, rightRan, Nat.le_refl _⟩

end Makes

namespace Contains

variable {outer inner : Evaluation} {value : Value} {identity : Nat}

theorem fresh_le (contains : outer.Contains inner) (makes : inner.Makes value)
    (isIdentity : value.identity? = some identity) : outer.machine.store.fresh ≤ identity := by
  rcases makes.ends with ⟨made, later, isMade, -, least, -⟩
  cases isIdentity.symm.trans isMade
  exact Nat.le_trans contains.later.grows.fresh least

theorem lt_fresh (contains : outer.Contains inner) (makes : inner.Makes value)
    (isIdentity : value.identity? = some identity) {result : Value} {later : Machine}
    (ends : outer.result? = some (result, later)) : identity < later.store.fresh := by
  rcases makes.ends with ⟨made, last, isMade, innerEnds, -, next⟩
  cases isIdentity.symm.trans isMade
  rcases contains.ended ends with ⟨otherResult, otherLast, otherEnds, after⟩
  cases innerEnds.symm.trans otherEnds
  have le := after.grows.fresh
  omega

theorem lt_of_before {first second other : Evaluation} {otherValue : Value} {otherIdentity : Nat}
    (before : first.Before second) (contains : first.Contains inner) (makes : inner.Makes value)
    (isIdentity : value.identity? = some identity) (otherContains : second.Contains other)
    (otherMakes : other.Makes otherValue) (isOther : otherValue.identity? = some otherIdentity) :
    identity < otherIdentity := by
  rcases before with ⟨result, later, ends, grows⟩
  have below := contains.lt_fresh makes isIdentity ends
  have above := otherContains.fresh_le otherMakes isOther
  have le := grows.fresh
  omega

theorem lt_of_makes {part : Evaluation} {partValue : Value} {partIdentity : Nat}
    (makes : outer.Makes value) (isIdentity : value.identity? = some identity)
    (starts : outer.Starts part) (contains : part.Contains inner) (partMakes : inner.Makes partValue)
    (isPart : partValue.identity? = some partIdentity) : partIdentity < identity := by
  rcases makes.part_ended starts isIdentity with ⟨result, last, ends, le⟩
  exact Nat.lt_of_lt_of_le (contains.lt_fresh partMakes isPart ends) le

end Contains

/-- Of what an evaluation contains, only one makes an object of a given identity. -/
theorem maker_unique (evaluation : Evaluation) : ∀ {first second : Evaluation} {value other : Value}
    {identity : Nat}, evaluation.Contains first → evaluation.Contains second → first.Makes value →
      second.Makes other → value.identity? = some identity → other.identity? = some identity →
        first = second := by
  induction evaluation using Evaluation.induction with
  | step outer ih =>
      intro first second value other identity inFirst inSecond makes otherMakes isIdentity isOther
      -- An evaluation hands out the identity of its own object when all of its parts have ended, and
      -- of two parts one has ended before the other one starts.
      rcases inFirst.cases_head with rfl | ⟨part, starts, partContains⟩
      · rcases inSecond.cases_head with rfl | ⟨part, starts, partContains⟩
        · rfl
        · have less := Contains.lt_of_makes makes isIdentity starts partContains otherMakes isOther
          omega
      · rcases inSecond.cases_head with rfl | ⟨otherPart, otherStarts, otherContains⟩
        · have less := Contains.lt_of_makes otherMakes isOther starts partContains makes isIdentity
          omega
        · rcases starts.order otherStarts with rfl | before | before
          · exact ih part starts partContains otherContains makes otherMakes isIdentity isOther
          · have less := Contains.lt_of_before before partContains makes isIdentity otherContains
              otherMakes isOther
            omega
          · have less := Contains.lt_of_before before otherContains otherMakes isOther partContains
              makes isIdentity
            omega

end Evaluation

end Monkey
