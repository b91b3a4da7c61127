import Monkey.Evaluation.Run
import Monkey.Value.Operation

/-!
# Evaluation

Trees are evaluated by recursion on the tree, given a way to apply a value to arguments.
Application in turn evaluates the body of a function: it makes a new environment current, and
the caller's again when the body has ended. How deep calls may nest is limited by `fuel`, so
that every run ends. An evaluation that ends within the limit does not depend on it.

Operands, arguments and statements are evaluated from left to right. The value of a sequence of
statements is that of its last one, or null if there is none.
-/

namespace Monkey

mutual

/-- Evaluates an expression. -/
def Expr.eval (call : Value → List Value → Run) : Expr → Run
  | .ident name => .resolve name
  | .int value => .value (.int value)
  | .bool value => .value (.bool value)
  | .str text => .answer fun fresh => .ok (.str fresh text)
  | .unary op operand =>
    (operand.eval call).thenPlain fun value => .answer fun _ => op.apply value
  | .binary left op right =>
    (left.eval call).thenPlain fun leftValue =>
      (right.eval call).thenPlain fun rightValue =>
        .answer fun fresh => op.apply fresh leftValue rightValue
  | .ifThen condition consequence =>
    (condition.eval call).thenPlain fun value =>
      if value.isTruthy then Program.evalFrom call .null consequence else .value .null
  | .ifElse condition consequence alternative =>
    (condition.eval call).thenPlain fun value =>
      if value.isTruthy then Program.evalFrom call .null consequence
      else Program.evalFrom call .null alternative
  | .fn params body => .close params body
  | .call callee args =>
    (callee.eval call).thenPlain fun value => Expr.evalAll call (call value) args

/-- Evaluates expressions in turn and hands their values on. -/
def Expr.evalAll (call : Value → List Value → Run) (next : List Value → Run) : List Expr → Run
  | [] => next []
  | expr :: rest =>
    (expr.eval call).thenPlain fun value =>
      Expr.evalAll call (fun values => next (value :: values)) rest

/-- Evaluates a statement. -/
def Stmt.eval (call : Value → List Value → Run) : Stmt → Run
  | .letBe name value => (value.eval call).thenPlain fun value => .bind name value
  | .ret value => (value.eval call).thenPlain fun value => .value (.returned value)
  | .expr value => value.eval call
  | .block body => Program.evalFrom call .null body

/-- Evaluates statements in turn, where `last` is the value of the statement before them. -/
def Program.evalFrom (call : Value → List Value → Run) (last : Value) : List Stmt → Run
  | [] => .value last
  | stmt :: rest => (stmt.eval call).thenPlain fun value => Program.evalFrom call value rest

end

/-- What an application comes to between its start and its end. A function is evaluated in a new
environment inside the one in which it was made; a return ends there. -/
def Value.invoke (call : Value → List Value → Run) (args : List Value) : Value → Run
  | .fn _ params body env => fun machine =>
    if args.length = params.length then
      (Program.evalFrom call .null body (machine.inside env params args)).map
        fun (value, later) => (value.arrived, { later with env := machine.env })
    else Run.answer (fun _ => .error (.wrongArgumentCount args.length params.length)) machine
  | .builtin _ callee => .answer fun fresh => callee.apply fresh args
  | value => .answer fun _ => .error (.notFunction value.typeName)

/-- Applies a value to arguments, with at most `fuel` calls open at a time. -/
def Value.apply : (fuel : Nat) → Value → List Value → Run
  | 0, _, _ => fun _ => none
  | fuel + 1, callee, args => fun machine =>
    (callee.invoke (Value.apply fuel) args (machine.applying callee args)).map
      fun (value, later) => (value, later.record .exited)

/-- Evaluates a program in the current environment; a return ends there. -/
def Program.run (fuel : Nat) (program : Program) : Run := fun machine =>
  (Program.evalFrom (Value.apply fuel) .null program machine).map fun (value, later) =>
    (value.arrived, later)

/-- Evaluates a program in an environment. -/
def Program.eval (fuel : Nat) (env : Env) (program : Program) (store : Store) :
    Option (Value × Store) :=
  (program.run fuel ⟨env, store⟩).map fun (value, later) => (value, later.store)

theorem Program.eval_eq_some_iff {fuel : Nat} {env : Env} {program : Program} {store later : Store}
    {value : Value} :
    program.eval fuel env store = some (value, later) ↔
      ∃ result last, Program.evalFrom (Value.apply fuel) .null program ⟨env, store⟩ =
        some (result, last) ∧ result.arrived = value ∧ last.store = later := by
  simp [Program.eval, Program.run]

end Monkey
