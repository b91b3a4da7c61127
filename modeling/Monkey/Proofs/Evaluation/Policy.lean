import Monkey.Proofs.Evaluation.Literals
import Monkey.Proofs.Evaluation.Making

/-!
# Policies

Most of what can be said of evaluations is preserved by each of the few ways in which they touch
the machine, and then holds of all of them. A policy names such a property: what an evaluation
relies on, which literals it may come upon, what it says of the values that are in hand meanwhile,
and what it guarantees. Its laws speak of single steps only. That every evaluation follows every
policy is proved once, by recursion over the trees and over the call limit.
-/

namespace Monkey

/-- What evaluations rely on and guarantee, given the literals that they come upon. -/
structure Policy where
  /-- What an evaluation relies on. -/
  pre : Machine → Prop
  /-- What holds of a literal that may be evaluated. -/
  allows : Machine → Literal → Prop
  /-- What holds of a plain value that is in hand. -/
  fits : Machine → Value → Prop
  /-- What holds of the machine before an evaluation, its result, and the machine afterwards. -/
  post : Machine → Value → Machine → Prop
  /-- What holds in the same way of an application. -/
  applied : Machine → Value → Machine → Prop
  -- How evaluations follow each other and end.
  settled {machine later : Machine} {value : Value} :
    pre machine → post machine value later → pre later
  ready {machine later : Machine} {value : Value} :
    pre machine → post machine value later → value.isCarrier = false → fits later value
  keeps {machine later : Machine} {value held : Value} :
    pre machine → post machine value later → fits machine held → fits later held
  carries {machine later : Machine} {value : Value} {literal : Literal} :
    pre machine → post machine value later → allows machine literal → allows later literal
  trans {first second third : Machine} {value result : Value} :
    post first value second → value.isCarrier = false → post second result third →
      post first result third
  arrived {machine later : Machine} {value : Value} :
    post machine value later → post machine value.arrived later
  post_of_applied {machine later : Machine} {value : Value} :
    applied machine value later → post machine value later
  -- What a single step does.
  atomic {machine : Machine} {value : Value} : pre machine → value.Atomic → fits machine value
  value {machine : Machine} {value : Value} :
    pre machine → fits machine value → post machine value machine
  returned {machine : Machine} {value : Value} :
    pre machine → fits machine value → post machine (.returned value) machine
  str {machine : Machine} {text : String} :
    pre machine → allows machine (.str text) →
      post machine (.str machine.store.fresh text) machine.issue
  close {machine : Machine} {params : List String} {body : List Stmt} :
    pre machine → allows machine (.fn params body) →
      post machine (.fn machine.store.fresh params body machine.env) machine.issue
  made {machine : Machine} {operands : List Value} {value : Value} :
    pre machine → (∀ operand ∈ operands, fits machine operand) →
      value.MadeOf operands machine.store.fresh → post machine value machine.issue
  failed {machine : Machine} (fault : Fault) :
    pre machine → post machine (.error fault) (machine.record (.failed fault))
  lookup {machine : Machine} {name : String} {value : Value} :
    pre machine → machine.store.get? machine.env name = some value → post machine value machine
  bind {machine : Machine} {value : Value} (name : String) :
    pre machine → fits machine value → post machine .null (machine.bind name value)
  -- What an application does around the body of a function, or without one.
  answer {machine : Machine} {callee value : Value} {args : List Value} :
    pre machine → fits machine callee → (∀ arg ∈ args, fits machine arg) →
      value.MadeOf args machine.store.fresh →
      applied machine value ((machine.applying callee args).issue.record .exited)
  refuse {machine : Machine} {callee : Value} {args : List Value} (fault : Fault) :
    pre machine → fits machine callee → (∀ arg ∈ args, fits machine arg) →
      applied machine (.error fault)
        (((machine.applying callee args).record (.failed fault)).record .exited)
  enter {machine : Machine} {identity : Nat} {params : List String} {body : List Stmt} {env : Env}
      {args : List Value} :
    pre machine → fits machine (.fn identity params body env) → (∀ arg ∈ args, fits machine arg) →
      args.length = params.length →
      pre ((machine.applying (.fn identity params body env) args).inside env params args) ∧
        ∀ literal ∈ Program.literals body,
          allows ((machine.applying (.fn identity params body env) args).inside env params args)
            literal
  leave {machine later : Machine} {identity : Nat} {params : List String} {body : List Stmt}
      {env : Env} {args : List Value} {value : Value} :
    pre machine → fits machine (.fn identity params body env) → (∀ arg ∈ args, fits machine arg) →
      args.length = params.length →
      post ((machine.applying (.fn identity params body env) args).inside env params args)
        value later →
      applied machine value.arrived ({ later with env := machine.env }.record .exited)

namespace Policy

variable (policy : Policy)

/-- Where the run ends, its result is as the policy says. -/
def Meets (machine : Machine) (run : Run) : Prop :=
  ∀ ⦃value later⦄, run machine = some (value, later) → policy.post machine value later

/-- All of the literals may be evaluated. -/
def Allows (machine : Machine) (literals : List Literal) : Prop :=
  ∀ literal ∈ literals, policy.allows machine literal

/-- What held before some evaluations that gave plain values still holds after them. -/
structure Follows (machine later : Machine) : Prop where
  pre : policy.pre later
  keeps : ∀ ⦃held⦄, policy.fits machine held → policy.fits later held
  carries : ∀ ⦃literals⦄, policy.Allows machine literals → policy.Allows later literals

/-- Applications follow the policy. -/
def Calls (call : Value → List Value → Run) : Prop :=
  ∀ ⦃machine callee args⦄, policy.pre machine → policy.fits machine callee →
    (∀ arg ∈ args, policy.fits machine arg) →
      ∀ ⦃value later⦄, call callee args machine = some (value, later) →
        policy.applied machine value later

variable {policy}

theorem allows_append {machine : Machine} {first second : List Literal}
    (allowed : policy.Allows machine (first ++ second)) :
    policy.Allows machine first ∧ policy.Allows machine second :=
  List.forall_mem_append.mp allowed

theorem Follows.refl {machine : Machine} (pre : policy.pre machine) :
    policy.Follows machine machine :=
  ⟨pre, fun _ fits => fits, fun _ allowed => allowed⟩

theorem Follows.trans {first second third : Machine} (earlier : policy.Follows first second)
    (next : policy.Follows second third) : policy.Follows first third :=
  ⟨next.pre, fun _ fits => next.keeps (earlier.keeps fits),
    fun _ allowed => next.carries (earlier.carries allowed)⟩

theorem Follows.of_post {machine later : Machine} {value : Value} (pre : policy.pre machine)
    (post : policy.post machine value later) : policy.Follows machine later :=
  ⟨policy.settled pre post, fun _ fits => policy.keeps pre post fits,
    fun _ allowed literal member => policy.carries pre post (allowed literal member)⟩

/-- What comes next may rely on the result of the first run, if that is plain. -/
theorem Meets.thenPlain {machine : Machine} {first : Run} {next : Value → Run}
    (pre : policy.pre machine) (firstMeets : policy.Meets machine first)
    (nextMeets : ∀ value later, policy.Follows machine later → policy.fits later value →
      policy.Meets later (next value)) :
    policy.Meets machine (first.thenPlain next) := by
  intro result last ends
  simp only [Run.thenPlain] at ends
  split at ends
  · cases ends
  · rename_i value later ran
    have post := firstMeets ran
    split at ends
    · cases ends
      exact post
    · rename_i plain
      rw [Bool.not_eq_true] at plain
      have fits := policy.ready pre post plain
      exact policy.trans post plain (nextMeets value later (.of_post pre post) fits ends)

theorem Meets.value {machine : Machine} {value : Value} (pre : policy.pre machine)
    (fits : policy.fits machine value) : policy.Meets machine (.value value) := by
  intro result later ends
  cases ends
  exact policy.value pre fits

theorem Meets.answer {machine : Machine} {operands : List Value}
    {make : Nat → Except Fault Value} (pre : policy.pre machine)
    (operandsFit : ∀ operand ∈ operands, policy.fits machine operand)
    (makes : Makes operands make) : policy.Meets machine (.answer make) := by
  intro value later ends
  rcases Run.answer_cases makes ends with ⟨made, rfl⟩ | ⟨fault, rfl, rfl⟩
  · exact policy.made pre operandsFit made
  · exact policy.failed fault pre

theorem Meets.resolve {machine : Machine} (pre : policy.pre machine) (name : String) :
    policy.Meets machine (.resolve name) := by
  intro result later ends
  simp only [Run.resolve, Store.resolve] at ends
  split at ends
  · rename_i value found
    cases ends
    exact policy.lookup pre found
  · exact Meets.answer pre (List.forall_mem_nil _) (Builtin.makes_ofName? name) ends

/-! ### Every evaluation follows every policy

The trees are taken apart as evaluation does it, where applications are assumed to follow the
policy. That they do is an induction on how many calls may be open. -/

mutual

theorem meets_expr {call : Value → List Value → Run} (calls : policy.Calls call) :
    ∀ (expr : Expr) ⦃machine : Machine⦄, policy.pre machine →
      policy.Allows machine expr.literals → policy.Meets machine (expr.eval call)
  | .ident name, _, pre, _ => .resolve pre name
  | .int value, _, pre, _ => .value pre (policy.atomic pre (.int value))
  | .bool value, _, pre, _ => .value pre (policy.atomic pre (.bool value))
  | .str text, _, pre, allowed => fun _ _ ends => by
      cases ends
      exact policy.str pre (allowed _ List.mem_cons_self)
  | .unary op operand, _, pre, allowed => by
      refine .thenPlain pre (meets_expr calls operand pre allowed) fun value later follows fits => ?_
      exact .answer follows.pre (List.forall_mem_singleton.mpr fits) (op.makes_apply value)
  | .binary left op right, _, pre, allowed => by
      rcases allows_append allowed with ⟨leftAllowed, rightAllowed⟩
      refine .thenPlain pre (meets_expr calls left pre leftAllowed)
        fun leftValue middle afterLeft leftFits => ?_
      refine .thenPlain afterLeft.pre
        (meets_expr calls right afterLeft.pre (afterLeft.carries rightAllowed))
        fun rightValue later afterRight rightFits => ?_
      refine .answer afterRight.pre ?_ (op.makes_apply leftValue rightValue)
      exact List.forall_mem_cons.mpr
        ⟨afterRight.keeps leftFits, List.forall_mem_singleton.mpr rightFits⟩
  | .ifThen condition consequence, _, pre, allowed => by
      rcases allows_append allowed with ⟨conditionAllowed, consequenceAllowed⟩
      refine .thenPlain pre (meets_expr calls condition pre conditionAllowed)
        fun value later follows _ => ?_
      have null := policy.atomic follows.pre .null
      split
      · exact meets_stmts calls consequence follows.pre null (follows.carries consequenceAllowed)
      · exact .value follows.pre null
  | .ifElse condition consequence alternative, _, pre, allowed => by
      rcases allows_append allowed with ⟨conditionAllowed, branchesAllowed⟩
      rcases allows_append branchesAllowed with ⟨consequenceAllowed, alternativeAllowed⟩
      refine .thenPlain pre (meets_expr calls condition pre conditionAllowed)
        fun value later follows _ => ?_
      have null := policy.atomic follows.pre .null
      split
      · exact meets_stmts calls consequence follows.pre null (follows.carries consequenceAllowed)
      · exact meets_stmts calls alternative follows.pre null (follows.carries alternativeAllowed)
  | .fn params body, _, pre, allowed => fun _ _ ends => by
      cases ends
      exact policy.close pre (allowed _ List.mem_cons_self)
  | .call callee args, _, pre, allowed => by
      rcases allows_append allowed with ⟨calleeAllowed, argsAllowed⟩
      refine .thenPlain pre (meets_expr calls callee pre calleeAllowed)
        fun value later afterCallee fits => ?_
      refine meets_args calls args afterCallee.pre (afterCallee.carries argsAllowed)
        fun values last afterArgs argsFit => ?_
      intro result final ends
      exact policy.post_of_applied (calls afterArgs.pre (afterArgs.keeps fits) argsFit ends)
termination_by structural expr => expr

theorem meets_args {call : Value → List Value → Run} (calls : policy.Calls call) :
    ∀ (args : List Expr) {next : List Value → Run} ⦃machine : Machine⦄, policy.pre machine →
      policy.Allows machine (Expr.allLiterals args) →
      (∀ values later, policy.Follows machine later → (∀ value ∈ values, policy.fits later value) →
        policy.Meets later (next values)) →
      policy.Meets machine (Expr.evalAll call next args)
  | [], next, machine, pre, _, nextMeets =>
      nextMeets [] machine (.refl pre) (List.forall_mem_nil _)
  | arg :: rest, next, machine, pre, allowed, nextMeets => by
      rcases allows_append allowed with ⟨argAllowed, restAllowed⟩
      refine .thenPlain pre (meets_expr calls arg pre argAllowed) fun value later afterFirst fits => ?_
      refine meets_args calls rest afterFirst.pre (afterFirst.carries restAllowed)
        fun values last afterRest restFit => ?_
      refine nextMeets (value :: values) last (afterFirst.trans afterRest) ?_
      exact List.forall_mem_cons.mpr ⟨afterRest.keeps fits, restFit⟩
termination_by structural args => args

theorem meets_stmt {call : Value → List Value → Run} (calls : policy.Calls call) :
    ∀ (stmt : Stmt) ⦃machine : Machine⦄, policy.pre machine →
      policy.Allows machine stmt.literals → policy.Meets machine (stmt.eval call)
  | .letBe name value, _, pre, allowed => by
      refine .thenPlain pre (meets_expr calls value pre allowed)
        fun value later follows fits result last ends => ?_
      cases ends
      exact policy.bind name follows.pre fits
  | .ret value, _, pre, allowed => by
      refine .thenPlain pre (meets_expr calls value pre allowed)
        fun value later follows fits result last ends => ?_
      cases ends
      exact policy.returned follows.pre fits
  | .expr value, _, pre, allowed => meets_expr calls value pre allowed
  | .block body, _, pre, allowed => meets_stmts calls body pre (policy.atomic pre .null) allowed
termination_by structural stmt => stmt

theorem meets_stmts {call : Value → List Value → Run} (calls : policy.Calls call) :
    ∀ (stmts : List Stmt) {last : Value} ⦃machine : Machine⦄, policy.pre machine →
      policy.fits machine last → policy.Allows machine (Program.literals stmts) →
      policy.Meets machine (Program.evalFrom call last stmts)
  | [], _, _, pre, fits, _ => .value pre fits
  | stmt :: rest, _, _, pre, _, allowed => by
      rcases allows_append allowed with ⟨stmtAllowed, restAllowed⟩
      refine .thenPlain pre (meets_stmt calls stmt pre stmtAllowed) fun _ _ follows fits => ?_
      exact meets_stmts calls rest follows.pre fits (follows.carries restAllowed)
termination_by structural stmts => stmts

end

/-- Applications that do not get as far as the body of a function. -/
theorem applied_of_answer {machine last : Machine} {callee value : Value} {args : List Value}
    {make : Nat → Except Fault Value} (pre : policy.pre machine)
    (calleeFits : policy.fits machine callee) (argsFit : ∀ arg ∈ args, policy.fits machine arg)
    (makes : Makes args make)
    (ends : Run.answer make (machine.applying callee args) = some (value, last)) :
    policy.applied machine value (last.record .exited) := by
  rcases Run.answer_cases makes ends with ⟨made, rfl⟩ | ⟨fault, rfl, rfl⟩
  · exact policy.answer pre calleeFits argsFit made
  · exact policy.refuse fault pre calleeFits argsFit

/-- However deep calls may nest, applications follow the policy. -/
theorem calls_apply (fuel : Nat) : policy.Calls (Value.apply fuel) := by
  induction fuel with
  | zero =>
      intro machine callee args pre calleeFits argsFit value later ends
      cases ends
  | succ fuel ih =>
      intro machine callee args pre calleeFits argsFit value later ends
      simp only [Value.apply, Option.map_eq_some_iff] at ends
      rcases ends with ⟨⟨result, last⟩, invoked, answered⟩
      cases answered
      cases callee with
      | fn identity params body env =>
          simp only [Value.invoke] at invoked
          split at invoked
          · rename_i sameLength
            rcases Option.map_eq_some_iff.mp invoked with ⟨⟨bodyValue, bodyLater⟩, ran, left⟩
            cases left
            rcases policy.enter pre calleeFits argsFit sameLength with ⟨entered, allowed⟩
            have post := meets_stmts ih body entered (policy.atomic entered .null) allowed ran
            exact policy.leave pre calleeFits argsFit sameLength post
          · exact applied_of_answer pre calleeFits argsFit (makes_error _ _) invoked
      | builtin identity callee =>
          exact applied_of_answer pre calleeFits argsFit (callee.makes_apply args) invoked
      | _ => exact applied_of_answer pre calleeFits argsFit (makes_error _ _) invoked

theorem meets_program (fuel : Nat) (program : Program) {machine : Machine}
    (pre : policy.pre machine) (allowed : policy.Allows machine (Program.literals program)) :
    policy.Meets machine (program.run fuel) := by
  intro value later ends
  rcases Option.map_eq_some_iff.mp ends with ⟨⟨result, last⟩, ran, answered⟩
  cases answered
  have null := policy.atomic pre .null
  exact policy.arrived (meets_stmts (calls_apply fuel) program pre null allowed ran)

end Policy

end Monkey
