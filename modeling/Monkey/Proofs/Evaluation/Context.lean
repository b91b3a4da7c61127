import Monkey.Proofs.Evaluation.Operands
import Monkey.Proofs.Evaluation.Sequence

/-!
# Carriers cut through

A `Context` is a tree with a hole in a place that is evaluated with the tree: anywhere but in the
body of a function literal. Evaluation comes to the hole if nothing in front of it gives a carrier,
and if the branches that the hole is in are taken. A carrier in the hole is then the result of the
whole, and evaluation ends there: nothing behind the hole has any influence. Where the tree is the
body of a function or a program, a returned value arrives at the end of that.
-/

namespace Monkey

/-- The kinds of trees. -/
inductive Phrase where
  | expr
  | stmt
  /-- Statements that follow each other. -/
  | body

/-- The trees of a kind. -/
abbrev Phrase.Tree : Phrase → Type
  | .expr => Expr
  | .stmt => Stmt
  | .body => List Stmt

/-- What there is to evaluate in a tree. -/
def Phrase.task : (phrase : Phrase) → phrase.Tree → Task
  | .expr, tree => .expr tree
  | .stmt, tree => .stmt tree
  | .body, trees => .stmts .null trees

/-- A tree of the kind `whole` that lacks a part of the kind `hole`. -/
inductive Context (hole : Phrase) : (whole : Phrase) → Type where
  | hole : Context hole hole
  | letValue (name : String) (inner : Context hole .expr) : Context hole .stmt
  | retValue (inner : Context hole .expr) : Context hole .stmt
  | statement (inner : Context hole .expr) : Context hole .stmt
  | block (inner : Context hole .body) : Context hole .stmt
  /-- One of the statements of a body. -/
  | member (earlier : List Stmt) (inner : Context hole .stmt) (later : List Stmt) :
      Context hole .body
  | operand (op : UnaryOp) (inner : Context hole .expr) : Context hole .expr
  | left (inner : Context hole .expr) (op : BinaryOp) (second : Expr) : Context hole .expr
  | right (first : Expr) (op : BinaryOp) (inner : Context hole .expr) : Context hole .expr
  /-- The condition of a choice with one branch. -/
  | condition (inner : Context hole .expr) (branch : List Stmt) : Context hole .expr
  | consequence (test : Expr) (inner : Context hole .body) : Context hole .expr
  /-- The condition of a choice between two branches. -/
  | eitherCondition (inner : Context hole .expr) (branch other : List Stmt) : Context hole .expr
  | eitherConsequence (test : Expr) (inner : Context hole .body) (other : List Stmt) :
      Context hole .expr
  | alternative (test : Expr) (branch : List Stmt) (inner : Context hole .body) : Context hole .expr
  | callee (inner : Context hole .expr) (args : List Expr) : Context hole .expr
  | arg (function : Expr) (earlier : List Expr) (inner : Context hole .expr) (later : List Expr) :
      Context hole .expr

namespace Context

variable {hole : Phrase}

/-- The tree with this part in the hole. -/
def fill (tree : hole.Tree) : {whole : Phrase} → Context hole whole → whole.Tree
  | _, .hole => tree
  | _, .letValue name inner => Stmt.letBe name (inner.fill tree)
  | _, .retValue inner => Stmt.ret (inner.fill tree)
  | _, .statement inner => Stmt.expr (inner.fill tree)
  | _, .block inner => Stmt.block (inner.fill tree)
  | _, .member earlier inner later => earlier ++ inner.fill tree :: later
  | _, .operand op inner => Expr.unary op (inner.fill tree)
  | _, .left inner op second => Expr.binary (inner.fill tree) op second
  | _, .right first op inner => Expr.binary first op (inner.fill tree)
  | _, .condition inner branch => Expr.ifThen (inner.fill tree) branch
  | _, .consequence test inner => Expr.ifThen test (inner.fill tree)
  | _, .eitherCondition inner branch other => Expr.ifElse (inner.fill tree) branch other
  | _, .eitherConsequence test inner other => Expr.ifElse test (inner.fill tree) other
  | _, .alternative test branch inner => Expr.ifElse test branch (inner.fill tree)
  | _, .callee inner args => Expr.call (inner.fill tree) args
  | _, .arg function earlier inner later =>
    Expr.call function (earlier ++ inner.fill tree :: later)

/-- Whoever evaluates the tree on the first machine comes to the hole on the second one. -/
inductive Reaches (fuel : Nat) :
    {whole : Phrase} → Context hole whole → Machine → Machine → Prop where
  | hole {machine : Machine} : Reaches fuel .hole machine machine
  | letValue {machine reached : Machine} {name : String} {inner : Context hole .expr}
      (inside : Reaches fuel inner machine reached) :
      Reaches fuel (.letValue name inner) machine reached
  | retValue {machine reached : Machine} {inner : Context hole .expr}
      (inside : Reaches fuel inner machine reached) : Reaches fuel (.retValue inner) machine reached
  | statement {machine reached : Machine} {inner : Context hole .expr}
      (inside : Reaches fuel inner machine reached) :
      Reaches fuel (.statement inner) machine reached
  | block {machine reached : Machine} {inner : Context hole .body}
      (inside : Reaches fuel inner machine reached) : Reaches fuel (.block inner) machine reached
  | member {machine middle reached : Machine} {earlier later : List Stmt}
      {inner : Context hole .stmt} {last : Value}
      (ran : (Task.stmts .null earlier).run fuel machine = some (last, middle))
      (plain : last.isCarrier = false) (inside : Reaches fuel inner middle reached) :
      Reaches fuel (.member earlier inner later) machine reached
  | operand {machine reached : Machine} {op : UnaryOp} {inner : Context hole .expr}
      (inside : Reaches fuel inner machine reached) :
      Reaches fuel (.operand op inner) machine reached
  | left {machine reached : Machine} {inner : Context hole .expr} {op : BinaryOp} {second : Expr}
      (inside : Reaches fuel inner machine reached) :
      Reaches fuel (.left inner op second) machine reached
  | right {machine middle reached : Machine} {first : Expr} {op : BinaryOp}
      {inner : Context hole .expr} {value : Value}
      (ran : (Task.expr first).run fuel machine = some (value, middle))
      (plain : value.isCarrier = false) (inside : Reaches fuel inner middle reached) :
      Reaches fuel (.right first op inner) machine reached
  | condition {machine reached : Machine} {inner : Context hole .expr} {branch : List Stmt}
      (inside : Reaches fuel inner machine reached) :
      Reaches fuel (.condition inner branch) machine reached
  | consequence {machine middle reached : Machine} {test : Expr} {inner : Context hole .body}
      {value : Value} (ran : (Task.expr test).run fuel machine = some (value, middle))
      (plain : value.isCarrier = false) (truthy : value.isTruthy = true)
      (inside : Reaches fuel inner middle reached) :
      Reaches fuel (.consequence test inner) machine reached
  | eitherCondition {machine reached : Machine} {inner : Context hole .expr}
      {branch other : List Stmt} (inside : Reaches fuel inner machine reached) :
      Reaches fuel (.eitherCondition inner branch other) machine reached
  | eitherConsequence {machine middle reached : Machine} {test : Expr}
      {inner : Context hole .body} {other : List Stmt} {value : Value}
      (ran : (Task.expr test).run fuel machine = some (value, middle))
      (plain : value.isCarrier = false) (truthy : value.isTruthy = true)
      (inside : Reaches fuel inner middle reached) :
      Reaches fuel (.eitherConsequence test inner other) machine reached
  | alternative {machine middle reached : Machine} {test : Expr} {branch : List Stmt}
      {inner : Context hole .body} {value : Value}
      (ran : (Task.expr test).run fuel machine = some (value, middle))
      (plain : value.isCarrier = false) (falsy : value.isTruthy = false)
      (inside : Reaches fuel inner middle reached) :
      Reaches fuel (.alternative test branch inner) machine reached
  | callee {machine reached : Machine} {inner : Context hole .expr} {args : List Expr}
      (inside : Reaches fuel inner machine reached) :
      Reaches fuel (.callee inner args) machine reached
  | arg {machine middle last reached : Machine} {function : Expr} {earlier later : List Expr}
      {inner : Context hole .expr} {value : Value} {events : List Event} {values : List Value}
      (ran : (Task.expr function).run fuel machine = some (value, middle))
      (plain : value.isCarrier = false)
      (operands : Operands fuel middle earlier events (.ok values) last)
      (inside : Reaches fuel inner last reached) :
      Reaches fuel (.arg function earlier inner later) machine reached

end Context

/-- Arguments that have plain values are handed on. -/
theorem Operands.evalAll_append {fuel : Nat} {machine middle : Machine} {exprs : List Expr}
    {events : List Event} {outcome : Except Value (List Value)} {values : List Value}
    (operands : Operands fuel machine exprs events outcome middle) (passed : outcome = .ok values)
    (next : List Value → Run) (rest : List Expr) :
    Expr.evalAll (Value.apply fuel) next (exprs ++ rest) machine =
      Expr.evalAll (Value.apply fuel) (fun more => next (values ++ more)) rest middle := by
  induction operands generalizing values next with
  | nil =>
      cases passed
      rfl
  | cut => cases passed
  | @cons _ _ _ _ _ value _ _ outcome ran plain _ _ ih =>
      cases outcome with
      | error carrier => cases passed
      | ok others =>
          cases passed
          exact (Run.thenPlain_of_plain ran plain).trans (ih rfl fun more => next (value :: more))

namespace Context

variable {hole : Phrase} {tree : hole.Tree} {fuel : Nat} {reached later : Machine} {carrier : Value}

/-- A carrier in the hole is the result of the whole, and evaluation ends where it ends in the hole.
-/
theorem Reaches.run_fill {whole : Phrase} {context : Context hole whole} {machine : Machine}
    (reaches : context.Reaches fuel machine reached)
    (ran : (hole.task tree).run fuel reached = some (carrier, later))
    (isCarrier : carrier.isCarrier = true) :
    (whole.task (context.fill tree)).run fuel machine = some (carrier, later) := by
  induction reaches with
  | hole => exact ran
  | statement _ ih | block _ ih => exact ih ran
  | letValue _ ih | retValue _ ih | operand _ ih | left _ ih | condition _ ih
  | eitherCondition _ ih | callee _ ih => exact Run.thenPlain_of_carrier (ih ran) isCarrier
  | right before plain _ ih =>
      refine (Run.thenPlain_of_plain before plain).trans ?_
      exact Run.thenPlain_of_carrier (ih ran) isCarrier
  | @member machine _ _ earlier following inner _ before plain _ ih =>
      change Program.evalFrom _ .null (earlier ++ inner.fill tree :: following) machine = _
      rw [Program.evalFrom_append earlier _ rfl]
      refine (Run.thenPlain_of_plain before plain).trans ?_
      exact Run.thenPlain_of_carrier (ih ran) isCarrier
  | consequence before plain truthy _ ih | eitherConsequence before plain truthy _ ih =>
      refine (Run.thenPlain_of_plain before plain).trans ?_
      rw [if_pos truthy]
      exact ih ran
  | alternative before plain falsy _ ih =>
      refine (Run.thenPlain_of_plain before plain).trans ?_
      rw [falsy, if_neg Bool.false_ne_true]
      exact ih ran
  | arg before plain operands _ ih =>
      refine (Run.thenPlain_of_plain before plain).trans ?_
      rw [operands.evalAll_append rfl]
      exact Run.thenPlain_of_carrier (ih ran) isCarrier

/-- What cuts through the body of a function arrives at the end of the application. -/
theorem Reaches.apply_fill {context : Context hole .body} {identity : Nat} {params : List String}
    {env : Env} {args : List Value} {machine : Machine} (sameLength : args.length = params.length)
    (reaches : context.Reaches fuel ((machine.applying
      (.fn identity params (context.fill tree) env) args).inside env params args) reached)
    (ran : (hole.task tree).run fuel reached = some (carrier, later))
    (isCarrier : carrier.isCarrier = true) :
    Value.apply (fuel + 1) (.fn identity params (context.fill tree) env) args machine =
      some (carrier.arrived, { later with env := machine.env }.record .exited) := by
  have body := reaches.run_fill ran isCarrier
  simp only [Phrase.task, Task.run] at body
  simp [Value.apply, Value.invoke, sameLength, body]

/-- Let a statement or an expression give a carrier on the machine on which its place in a tree is
reached. Then the tree gives this carrier, and leaves the machine that the part in the hole leaves,
whatever stands behind the hole. If the tree is the body of a function or a program, and the carrier
is a returned value, the application or the program gives that value itself. -/
theorem carrier_of_fill (ran : (hole.task tree).run fuel reached = some (carrier, later))
    (isCarrier : carrier.isCarrier = true) :
    (∀ {whole : Phrase} (context : Context hole whole) {machine : Machine},
      context.Reaches fuel machine reached →
        (whole.task (context.fill tree)).run fuel machine = some (carrier, later)) ∧
    ∀ (context : Context hole .body) (value : Value), carrier = .returned value →
      (∀ (identity : Nat) (params : List String) (env : Env) (args : List Value)
          (machine : Machine), args.length = params.length →
          context.Reaches fuel ((machine.applying
            (.fn identity params (context.fill tree) env) args).inside env params args) reached →
            Value.apply (fuel + 1) (.fn identity params (context.fill tree) env) args machine =
              some (value, { later with env := machine.env }.record .exited)) ∧
      ∀ machine : Machine, context.Reaches fuel machine reached →
        Program.run fuel (context.fill tree) machine = some (value, later) := by
  refine ⟨fun context machine reaches => reaches.run_fill ran isCarrier, ?_⟩
  rintro context value rfl
  refine ⟨fun identity params env args machine sameLength reaches => ?_, fun machine reaches => ?_⟩
  · exact reaches.apply_fill sameLength ran rfl
  · have body := reaches.run_fill ran rfl
    simp only [Phrase.task, Task.run] at body
    simp [Program.run, body, Value.arrived]

/-- The tree `let y = 1; let x = y + len("a", if (true) { … }, f()); x`, where a statement is
missing in the branch. -/
def inArgument : Context .stmt .body :=
  .member [.letBe "y" (.int 1)]
    (.letValue "x" (.right (.ident "y") .add (.arg (.ident "len") [.str "a"]
      (.consequence (.bool true) (.member [] .hole [])) [.call (.ident "f") []])))
    [.expr (.ident "x")]

/-- The function with the parameter `p` and this body, where `return p` is the statement in the
branch. -/
def leaver : Value := .fn 0 ["p"] (inArgument.fill (Stmt.ret (.ident "p"))) 0

/-- A return in an argument leaves the function: nothing is added, `len` is not applied, and `f` is
not looked up. In front of it `y` is bound, and two objects are made. -/
theorem carrier_of_fill_leaver :
    ∃ caller started : Machine,
      started = (caller.applying leaver [.int 7]).inside 0 ["p"] [.int 7] ∧
        inArgument.Reaches 0 started (started.bind "y" (.int 1)).issue.issue ∧
        leaver.apply 1 [.int 7] caller = some (.int 7,
          { (started.bind "y" (.int 1)).issue.issue with env := caller.env }.record .exited) := by
  let caller : Machine := ⟨0, ⟨#[⟨[], []⟩], 1, #[]⟩⟩
  let started := (caller.applying leaver [.int 7]).inside 0 ["p"] [.int 7]
  let bound := started.bind "y" (.int 1)
  have binds : (Task.stmts .null [.letBe "y" (.int 1)]).run 0 started = some (.null, bound) := rfl
  have first : (Task.expr (.ident "y")).run 0 bound = some (.int 1, bound) := rfl
  have callee : (Task.expr (.ident "len")).run 0 bound =
      some (.builtin 1 .length, bound.issue) := rfl
  have argument : (Task.expr (.str "a")).run 0 bound.issue =
      some (.str 2 "a", bound.issue.issue) := rfl
  have operands : Operands 0 bound.issue [.str "a"] [] (.ok [.str 2 "a"]) bound.issue.issue :=
    .cons argument rfl (List.append_nil _).symm .nil
  have test : (Task.expr (.bool true)).run 0 bound.issue.issue =
      some (.bool true, bound.issue.issue) := rfl
  have reaches : inArgument.Reaches 0 started bound.issue.issue := by
    refine .member binds rfl (.letValue (.right first rfl (.arg callee rfl operands ?_)))
    exact .consequence test rfl rfl (.member rfl rfl .hole)
  have ran : (Phrase.stmt.task (Stmt.ret (.ident "p"))).run 0 bound.issue.issue =
      some (.returned (.int 7), bound.issue.issue) := rfl
  have returned := (carrier_of_fill ran rfl).2 inArgument (.int 7) rfl
  exact ⟨caller, started, rfl, reaches, returned.1 0 ["p"] 0 [.int 7] caller rfl reaches⟩

end Context

end Monkey
