import Monkey.Proofs.Evaluation.Policy

/-!
# Contracts

What most properties say of evaluations does not depend on the program. A contract names such a
property: what an evaluation relies on, what it says of the values that are in hand meanwhile, and
what it guarantees. It is a policy that allows all literals, so every evaluation meets it.
-/

namespace Monkey

/-- What evaluations rely on and guarantee. -/
structure Contract where
  /-- What an evaluation relies on. -/
  pre : Machine → Prop
  /-- What holds of a plain value that is in hand. -/
  fits : Machine → Value → Prop
  /-- What holds of the machine before an evaluation, its result, and the machine afterwards. -/
  post : Machine → Value → Machine → Prop
  /-- What holds in the same way of an application. -/
  applied : Machine → Value → Machine → Prop
  -- How evaluations follow each other and end.
  settled {machine later : Machine} {value : Value} :
    pre machine → post machine value later → pre later
  ready {machine later : Machine} {value : Value} :
    pre machine → post machine value later → value.isCarrier = false → fits later value
  keeps {machine later : Machine} {value held : Value} :
    pre machine → post machine value later → fits machine held → fits later held
  trans {first second third : Machine} {value result : Value} :
    post first value second → value.isCarrier = false → post second result third →
      post first result third
  arrived {machine later : Machine} {value : Value} :
    post machine value later → post machine value.arrived later
  post_of_applied {machine later : Machine} {value : Value} :
    applied machine value later → post machine value later
  -- What a single step does.
  atomic {machine : Machine} {value : Value} : pre machine → value.Atomic → fits machine value
  value {machine : Machine} {value : Value} :
    pre machine → fits machine value → post machine value machine
  returned {machine : Machine} {value : Value} :
    pre machine → fits machine value → post machine (.returned value) machine
  made {machine : Machine} {value : Value} :
    pre machine → value.Made machine.store.fresh → post machine value machine.issue
  failed {machine : Machine} (fault : Fault) :
    pre machine → post machine (.error fault) (machine.record (.failed fault))
  close {machine : Machine} (params : List String) (body : List Stmt) :
    pre machine → post machine (.fn machine.store.fresh params body machine.env) machine.issue
  lookup {machine : Machine} {name : String} {value : Value} :
    pre machine → machine.store.get? machine.env name = some value → post machine value machine
  bind {machine : Machine} {value : Value} (name : String) :
    pre machine → fits machine value → post machine .null (machine.bind name value)
  -- What an application does around the body of a function, or without one.
  answer {machine : Machine} {callee value : Value} {args : List Value} :
    pre machine → fits machine callee → (∀ arg ∈ args, fits machine arg) →
      value.Made machine.store.fresh →
      applied machine value ((machine.applying callee args).issue.record .exited)
  refuse {machine : Machine} {callee : Value} {args : List Value} (fault : Fault) :
    pre machine → fits machine callee → (∀ arg ∈ args, fits machine arg) →
      applied machine (.error fault)
        (((machine.applying callee args).record (.failed fault)).record .exited)
  enter {machine : Machine} {identity : Nat} {params : List String} {body : List Stmt} {env : Env}
      {args : List Value} :
    pre machine → fits machine (.fn identity params body env) → (∀ arg ∈ args, fits machine arg) →
      args.length = params.length →
      pre ((machine.applying (.fn identity params body env) args).inside env params args)
  leave {machine later : Machine} {identity : Nat} {params : List String} {body : List Stmt}
      {env : Env} {args : List Value} {value : Value} :
    pre machine → fits machine (.fn identity params body env) → (∀ arg ∈ args, fits machine arg) →
      args.length = params.length →
      post ((machine.applying (.fn identity params body env) args).inside env params args)
        value later →
      applied machine value.arrived ({ later with env := machine.env }.record .exited)

namespace Contract

variable (contract : Contract)

/-- The policy that is met where the contract is, whatever there is to evaluate. -/
def policy : Policy where
  pre := contract.pre
  allows _ _ := True
  fits := contract.fits
  post := contract.post
  applied := contract.applied
  settled := contract.settled
  ready := contract.ready
  keeps := contract.keeps
  carries _ _ _ := trivial
  trans := contract.trans
  arrived := contract.arrived
  post_of_applied := contract.post_of_applied
  atomic := contract.atomic
  value := contract.value
  returned := contract.returned
  str pre _ := contract.made pre (.str _)
  close pre _ := contract.close _ _ pre
  made pre _ made := contract.made pre made.made
  failed := contract.failed
  lookup := contract.lookup
  bind := contract.bind
  answer pre calleeFits argsFit made := contract.answer pre calleeFits argsFit made.made
  refuse := contract.refuse
  enter pre calleeFits argsFit sameLength :=
    ⟨contract.enter pre calleeFits argsFit sameLength, fun _ _ => trivial⟩
  leave := contract.leave

/-- Where the run ends, its result is as the contract says. -/
def Meets (machine : Machine) (run : Run) : Prop :=
  ∀ ⦃value later⦄, run machine = some (value, later) → contract.post machine value later

/-- Applications meet the contract. -/
def Calls (call : Value → List Value → Run) : Prop :=
  ∀ ⦃machine callee args⦄, contract.pre machine → contract.fits machine callee →
    (∀ arg ∈ args, contract.fits machine arg) →
      ∀ ⦃value later⦄, call callee args machine = some (value, later) →
        contract.applied machine value later

variable {contract}

/-- However deep calls may nest, applications meet the contract. -/
theorem calls_apply (fuel : Nat) : contract.Calls (Value.apply fuel) :=
  @Policy.calls_apply contract.policy fuel

theorem meets_program (fuel : Nat) (program : Program) {machine : Machine}
    (pre : contract.pre machine) : contract.Meets machine (program.run fuel) :=
  @Policy.meets_program contract.policy fuel program machine pre fun _ _ => trivial

end Contract

end Monkey
