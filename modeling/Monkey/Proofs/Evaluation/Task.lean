import Monkey.Proofs.Evaluation.Contract

/-!
# Evaluations within evaluations

An evaluation starts further ones: of its operands, of its statements, of the body of a function
that it applies. Each of them works on the machine that those before it have left. What a contract
asks for at the start of an evaluation therefore holds at the start of all evaluations within it.
-/

namespace Monkey

/-- What there is to evaluate. -/
inductive Task where
  | expr (expr : Expr)
  /-- The rest of the arguments of a call, and the call itself. -/
  | args (callee : Value) (earlier : List Value) (rest : List Expr)
  | stmt (stmt : Stmt)
  /-- The rest of the statements of a block, where `last` is the value of the one before them. -/
  | stmts (last : Value) (rest : List Stmt)
  | apply (callee : Value) (args : List Value)
  | program (program : Program)

/-- The evaluation of a task, with at most `fuel` calls open at a time. -/
def Task.run (fuel : Nat) : Task → Run
  | .expr tree => tree.eval (Value.apply fuel)
  | .args callee earlier rest =>
    Expr.evalAll (Value.apply fuel) (fun values => Value.apply fuel callee (earlier ++ values)) rest
  | .stmt tree => tree.eval (Value.apply fuel)
  | .stmts last rest => Program.evalFrom (Value.apply fuel) last rest
  | .apply callee values => callee.apply fuel values
  | .program trees => trees.run fuel

/-- A task, the machine on which its evaluation starts, and how many calls may be open in it. -/
structure Evaluation where
  fuel : Nat
  task : Task
  machine : Machine

theorem Run.answer_ne_none (make : Nat → Except Fault Value) (machine : Machine) :
    Run.answer make machine ≠ none := by
  simp [Run.answer]

theorem Run.thenPlain_ne_none {first : Run} {next : Value → Run} {machine : Machine}
    (firstEnds : first machine ≠ none)
    (nextEnds : ∀ value later, first machine = some (value, later) → value.isCarrier = false →
      next value later ≠ none) :
    first.thenPlain next machine ≠ none := by
  simp only [Run.thenPlain]
  split
  · rename_i undefined
    exact absurd undefined firstEnds
  · rename_i value later ran
    split
    · simp
    · rename_i plain
      exact nextEnds value later ran (by simpa using plain)

namespace Evaluation

/-- The result of an evaluation and the machine afterwards. -/
def result? (evaluation : Evaluation) : Option (Value × Machine) :=
  evaluation.task.run evaluation.fuel evaluation.machine

/-- The first evaluation starts the second one as a part of itself. -/
inductive Starts : Evaluation → Evaluation → Prop where
  | operand {fuel : Nat} {machine : Machine} {op : UnaryOp} {operand : Expr} :
      Starts ⟨fuel, .expr (.unary op operand), machine⟩ ⟨fuel, .expr operand, machine⟩
  | left {fuel : Nat} {machine : Machine} {op : BinaryOp} {left right : Expr} :
      Starts ⟨fuel, .expr (.binary left op right), machine⟩ ⟨fuel, .expr left, machine⟩
  | right {fuel : Nat} {machine later : Machine} {op : BinaryOp} {left right : Expr} {value : Value}
      (ran : (Task.expr left).run fuel machine = some (value, later))
      (plain : value.isCarrier = false) :
      Starts ⟨fuel, .expr (.binary left op right), machine⟩ ⟨fuel, .expr right, later⟩
  | condition {fuel : Nat} {machine : Machine} {condition : Expr} {consequence : List Stmt} :
      Starts ⟨fuel, .expr (.ifThen condition consequence), machine⟩
        ⟨fuel, .expr condition, machine⟩
  | consequence {fuel : Nat} {machine later : Machine} {condition : Expr} {consequence : List Stmt}
      {value : Value} (ran : (Task.expr condition).run fuel machine = some (value, later))
      (plain : value.isCarrier = false) (truthy : value.isTruthy = true) :
      Starts ⟨fuel, .expr (.ifThen condition consequence), machine⟩
        ⟨fuel, .stmts .null consequence, later⟩
  | eitherCondition {fuel : Nat} {machine : Machine} {condition : Expr}
      {consequence alternative : List Stmt} :
      Starts ⟨fuel, .expr (.ifElse condition consequence alternative), machine⟩
        ⟨fuel, .expr condition, machine⟩
  | eitherConsequence {fuel : Nat} {machine later : Machine} {condition : Expr}
      {consequence alternative : List Stmt} {value : Value}
      (ran : (Task.expr condition).run fuel machine = some (value, later))
      (plain : value.isCarrier = false) (truthy : value.isTruthy = true) :
      Starts ⟨fuel, .expr (.ifElse condition consequence alternative), machine⟩
        ⟨fuel, .stmts .null consequence, later⟩
  | alternative {fuel : Nat} {machine later : Machine} {condition : Expr}
      {consequence alternative : List Stmt} {value : Value}
      (ran : (Task.expr condition).run fuel machine = some (value, later))
      (plain : value.isCarrier = false) (falsy : value.isTruthy = false) :
      Starts ⟨fuel, .expr (.ifElse condition consequence alternative), machine⟩
        ⟨fuel, .stmts .null alternative, later⟩
  | callee {fuel : Nat} {machine : Machine} {callee : Expr} {args : List Expr} :
      Starts ⟨fuel, .expr (.call callee args), machine⟩ ⟨fuel, .expr callee, machine⟩
  | args {fuel : Nat} {machine later : Machine} {callee : Expr} {args : List Expr} {value : Value}
      (ran : (Task.expr callee).run fuel machine = some (value, later))
      (plain : value.isCarrier = false) :
      Starts ⟨fuel, .expr (.call callee args), machine⟩ ⟨fuel, .args value [] args, later⟩
  | arg {fuel : Nat} {machine : Machine} {callee : Value} {earlier : List Value} {arg : Expr}
      {rest : List Expr} :
      Starts ⟨fuel, .args callee earlier (arg :: rest), machine⟩ ⟨fuel, .expr arg, machine⟩
  | laterArgs {fuel : Nat} {machine later : Machine} {callee : Value} {earlier : List Value}
      {arg : Expr} {rest : List Expr} {value : Value}
      (ran : (Task.expr arg).run fuel machine = some (value, later))
      (plain : value.isCarrier = false) :
      Starts ⟨fuel, .args callee earlier (arg :: rest), machine⟩
        ⟨fuel, .args callee (earlier ++ [value]) rest, later⟩
  | apply {fuel : Nat} {machine : Machine} {callee : Value} {args : List Value} :
      Starts ⟨fuel, .args callee args [], machine⟩ ⟨fuel, .apply callee args, machine⟩
  | bound {fuel : Nat} {machine : Machine} {name : String} {value : Expr} :
      Starts ⟨fuel, .stmt (.letBe name value), machine⟩ ⟨fuel, .expr value, machine⟩
  | returned {fuel : Nat} {machine : Machine} {value : Expr} :
      Starts ⟨fuel, .stmt (.ret value), machine⟩ ⟨fuel, .expr value, machine⟩
  | expr {fuel : Nat} {machine : Machine} {value : Expr} :
      Starts ⟨fuel, .stmt (.expr value), machine⟩ ⟨fuel, .expr value, machine⟩
  | block {fuel : Nat} {machine : Machine} {body : List Stmt} :
      Starts ⟨fuel, .stmt (.block body), machine⟩ ⟨fuel, .stmts .null body, machine⟩
  | stmt {fuel : Nat} {machine : Machine} {last : Value} {stmt : Stmt} {rest : List Stmt} :
      Starts ⟨fuel, .stmts last (stmt :: rest), machine⟩ ⟨fuel, .stmt stmt, machine⟩
  | laterStmts {fuel : Nat} {machine later : Machine} {last value : Value} {stmt : Stmt}
      {rest : List Stmt} (ran : (Task.stmt stmt).run fuel machine = some (value, later))
      (plain : value.isCarrier = false) :
      Starts ⟨fuel, .stmts last (stmt :: rest), machine⟩ ⟨fuel, .stmts value rest, later⟩
  | body {fuel : Nat} {machine : Machine} {identity : Nat} {params : List String}
      {body : List Stmt} {env : Env} {args : List Value}
      (sameLength : args.length = params.length) :
      Starts ⟨fuel + 1, .apply (.fn identity params body env) args, machine⟩
        ⟨fuel, .stmts .null body,
          (machine.applying (.fn identity params body env) args).inside env params args⟩
  | program {fuel : Nat} {machine : Machine} {program : Program} :
      Starts ⟨fuel, .program program, machine⟩ ⟨fuel, .stmts .null program, machine⟩

/-- Nothing is missing among the evaluations that one starts: if they all have results, so has it,
unless it is an application and no call may be open. -/
theorem result?_ne_none_of_starts {outer : Evaluation}
    (limit : ∀ callee args, outer.task = .apply callee args → outer.fuel ≠ 0)
    (parts : ∀ inner, outer.Starts inner → inner.result? ≠ none) : outer.result? ≠ none := by
  rcases outer with ⟨fuel, task, machine⟩
  cases task with
  | expr expr =>
      cases expr with
      | unary op operand =>
          exact Run.thenPlain_ne_none (parts _ .operand) fun _ _ _ _ => Run.answer_ne_none _ _
      | binary left op right =>
          refine Run.thenPlain_ne_none (parts _ .left) fun _ _ leftRan leftPlain => ?_
          exact Run.thenPlain_ne_none (parts _ (.right leftRan leftPlain))
            fun _ _ _ _ => Run.answer_ne_none _ _
      | ifThen condition consequence =>
          refine Run.thenPlain_ne_none (parts _ .condition) fun value later ran plain => ?_
          split
          · rename_i truthy
            exact parts _ (.consequence ran plain truthy)
          · exact Option.some_ne_none _
      | ifElse condition consequence alternative =>
          refine Run.thenPlain_ne_none (parts _ .eitherCondition) fun value later ran plain => ?_
          split
          · rename_i truthy
            exact parts _ (.eitherConsequence ran plain truthy)
          · rename_i falsy
            exact parts _ (.alternative ran plain (by simpa using falsy))
      | call callee args =>
          refine Run.thenPlain_ne_none (parts _ .callee) fun value later ran plain => ?_
          exact parts _ (.args ran plain)
      | _ => simp [result?, Task.run, Expr.eval, Run.resolve, Run.value, Run.answer, Run.close]
  | args callee earlier rest =>
      cases rest with
      | nil => simpa [result?, Task.run, Expr.evalAll] using parts _ .apply
      | cons arg rest =>
          refine Run.thenPlain_ne_none (parts _ .arg) fun value later ran plain => ?_
          simpa [result?, Task.run] using parts _ (.laterArgs ran plain)
  | stmt stmt =>
      cases stmt with
      | letBe name value =>
          exact Run.thenPlain_ne_none (parts _ .bound) fun _ _ _ _ => Option.some_ne_none _
      | ret value =>
          exact Run.thenPlain_ne_none (parts _ .returned) fun _ _ _ _ => Option.some_ne_none _
      | expr value =>
          have ends := parts _ .expr
          exact ends
      | block body =>
          have ends := parts _ .block
          exact ends
  | stmts last rest =>
      cases rest with
      | nil => exact Option.some_ne_none _
      | cons stmt rest =>
          refine Run.thenPlain_ne_none (parts _ .stmt) fun value later ran plain => ?_
          exact parts _ (.laterStmts ran plain)
  | apply callee args =>
      rcases fuel with _ | fuel
      · exact absurd rfl (limit callee args rfl)
      · cases callee with
        | fn identity params body env =>
            by_cases sameLength : args.length = params.length
            · have ends := parts _ (.body sameLength)
              simp only [result?, Task.run, Value.apply, Value.invoke, sameLength, if_true, ne_eq,
                Option.map_eq_none_iff]
              exact ends
            · simp [result?, Task.run, Value.apply, Value.invoke, sameLength, Run.answer]
        | _ => simp [result?, Task.run, Value.apply, Value.invoke, Run.answer]
  | program program =>
      have ends := parts _ .program
      simpa [result?, Task.run, Program.run] using ends

end Evaluation

/-- The literals of the trees in a task. -/
def Task.literals : Task → List Literal
  | .expr tree => tree.literals
  | .args _ _ rest => Expr.allLiterals rest
  | .stmt tree => tree.literals
  | .stmts _ rest => Program.literals rest
  | .apply _ _ => []
  | .program trees => Program.literals trees

/-- The values in a task. -/
def Task.values : Task → List Value
  | .args callee earlier _ => callee :: earlier
  | .stmts last _ => [last]
  | .apply callee given => callee :: given
  | .expr _ | .stmt _ | .program _ => []

namespace Policy

variable {policy : Policy}

/-- An evaluation may rely on what a policy asks for. -/
structure Admits (policy : Policy) (evaluation : Evaluation) : Prop where
  pre : policy.pre evaluation.machine
  fits : ∀ value ∈ evaluation.task.values, policy.fits evaluation.machine value
  allows : policy.Allows evaluation.machine evaluation.task.literals

/-- An evaluation that may rely on a policy follows it. -/
theorem Admits.post {evaluation : Evaluation} (admits : policy.Admits evaluation)
    {value : Value} {later : Machine} (ends : evaluation.result? = some (value, later)) :
    policy.post evaluation.machine value later := by
  rcases evaluation with ⟨fuel, task, machine⟩
  rcases admits with ⟨pre, fits, allowed⟩
  have calls : policy.Calls (Value.apply fuel) := calls_apply fuel
  cases task with
  | expr expr => exact meets_expr calls expr pre allowed ends
  | args callee earlier rest =>
      rcases List.forall_mem_cons.mp fits with ⟨calleeFits, earlierFit⟩
      refine meets_args calls rest pre allowed (fun values last follows valuesFit => ?_) ends
      intro result final applied
      refine policy.post_of_applied (calls follows.pre (follows.keeps calleeFits) ?_ applied)
      refine List.forall_mem_append.mpr ⟨fun arg member => ?_, valuesFit⟩
      exact follows.keeps (earlierFit arg member)
  | stmt stmt => exact meets_stmt calls stmt pre allowed ends
  | stmts last rest =>
      exact meets_stmts calls rest pre (List.forall_mem_singleton.mp fits) allowed ends
  | apply callee args =>
      rcases List.forall_mem_cons.mp fits with ⟨calleeFits, argsFit⟩
      exact policy.post_of_applied (calls pre calleeFits argsFit ends)
  | program program => exact meets_program fuel program pre allowed ends

/-- What an evaluation may rely on, the evaluations that it starts may rely on as well. -/
theorem Admits.starts {outer inner : Evaluation} (admits : policy.Admits outer)
    (starts : outer.Starts inner) : policy.Admits inner := by
  have after : ∀ {fuel : Nat} {task : Task} {machine later : Machine} {value : Value},
      task.run fuel machine = some (value, later) → value.isCarrier = false →
      policy.Admits ⟨fuel, task, machine⟩ →
      policy.Follows machine later ∧ policy.fits later value :=
    fun ran plain admits =>
      have post := admits.post ran
      ⟨.of_post admits.pre post, policy.ready admits.pre post plain⟩
  have null : ∀ {machine : Machine}, policy.pre machine →
      ∀ value ∈ [Value.null], policy.fits machine value :=
    fun pre => List.forall_mem_singleton.mpr (policy.atomic pre .null)
  rcases admits with ⟨pre, fits, allowed⟩
  cases starts with
  | operand | bound | returned | expr => exact ⟨pre, nofun, allowed⟩
  | left | condition | eitherCondition | callee | arg | stmt =>
      exact ⟨pre, nofun, (allows_append allowed).1⟩
  | right ran plain =>
      rcases allows_append allowed with ⟨leftAllowed, rightAllowed⟩
      have follows := (after ran plain ⟨pre, nofun, leftAllowed⟩).1
      exact ⟨follows.pre, nofun, follows.carries rightAllowed⟩
  | consequence ran plain =>
      rcases allows_append allowed with ⟨conditionAllowed, consequenceAllowed⟩
      have follows := (after ran plain ⟨pre, nofun, conditionAllowed⟩).1
      exact ⟨follows.pre, null follows.pre, follows.carries consequenceAllowed⟩
  | eitherConsequence ran plain =>
      rcases allows_append allowed with ⟨conditionAllowed, branchesAllowed⟩
      have follows := (after ran plain ⟨pre, nofun, conditionAllowed⟩).1
      exact ⟨follows.pre, null follows.pre, follows.carries (allows_append branchesAllowed).1⟩
  | alternative ran plain =>
      rcases allows_append allowed with ⟨conditionAllowed, branchesAllowed⟩
      have follows := (after ran plain ⟨pre, nofun, conditionAllowed⟩).1
      exact ⟨follows.pre, null follows.pre, follows.carries (allows_append branchesAllowed).2⟩
  | args ran plain =>
      rcases allows_append allowed with ⟨calleeAllowed, argsAllowed⟩
      rcases after ran plain ⟨pre, nofun, calleeAllowed⟩ with ⟨follows, calleeFits⟩
      exact ⟨follows.pre, List.forall_mem_singleton.mpr calleeFits, follows.carries argsAllowed⟩
  | laterArgs ran plain =>
      rcases allows_append allowed with ⟨argAllowed, restAllowed⟩
      rcases after ran plain ⟨pre, nofun, argAllowed⟩ with ⟨follows, valueFits⟩
      refine ⟨follows.pre, ?_, follows.carries restAllowed⟩
      rw [Task.values, ← List.cons_append]
      refine List.forall_mem_append.mpr ⟨fun held member => ?_, ?_⟩
      · exact follows.keeps (fits held member)
      · exact List.forall_mem_singleton.mpr valueFits
  | apply => exact ⟨pre, fits, List.forall_mem_nil _⟩
  | block | program => exact ⟨pre, null pre, allowed⟩
  | laterStmts ran plain =>
      rcases allows_append allowed with ⟨stmtAllowed, restAllowed⟩
      rcases after ran plain ⟨pre, nofun, stmtAllowed⟩ with ⟨follows, valueFits⟩
      exact ⟨follows.pre, List.forall_mem_singleton.mpr valueFits, follows.carries restAllowed⟩
  | body sameLength =>
      rcases List.forall_mem_cons.mp fits with ⟨calleeFits, argsFit⟩
      rcases policy.enter pre calleeFits argsFit sameLength with ⟨entered, bodyAllowed⟩
      exact ⟨entered, null entered, bodyAllowed⟩

end Policy

namespace Contract

variable {contract : Contract}

/-- What a contract says of the values in a task. -/
def FitsTask (contract : Contract) (machine : Machine) : Task → Prop
  | .args callee earlier _ =>
    contract.fits machine callee ∧ ∀ value ∈ earlier, contract.fits machine value
  | .stmts last _ => contract.fits machine last
  | .apply callee args => contract.fits machine callee ∧ ∀ arg ∈ args, contract.fits machine arg
  | _ => True

/-- An evaluation may rely on what a contract asks for. -/
structure Admits (contract : Contract) (evaluation : Evaluation) : Prop where
  pre : contract.pre evaluation.machine
  fits : contract.FitsTask evaluation.machine evaluation.task

theorem fitsTask_iff {machine : Machine} {task : Task} :
    contract.FitsTask machine task ↔ ∀ value ∈ task.values, contract.fits machine value := by
  cases task <;> simp [FitsTask, Task.values]

theorem Admits.policy {evaluation : Evaluation} (admits : contract.Admits evaluation) :
    contract.policy.Admits evaluation :=
  ⟨admits.pre, fitsTask_iff.mp admits.fits, fun _ _ => trivial⟩

/-- An evaluation that may rely on a contract meets it. -/
theorem Admits.post {evaluation : Evaluation} (admits : contract.Admits evaluation)
    {value : Value} {later : Machine} (ends : evaluation.result? = some (value, later)) :
    contract.post evaluation.machine value later :=
  admits.policy.post ends

/-- An application that may rely on a contract meets what that says of applications. -/
theorem Admits.applied {fuel : Nat} {callee : Value} {args : List Value} {machine : Machine}
    (admits : contract.Admits ⟨fuel, .apply callee args, machine⟩) {value : Value} {later : Machine}
    (ends : Value.apply fuel callee args machine = some (value, later)) :
    contract.applied machine value later :=
  calls_apply fuel admits.pre admits.fits.1 admits.fits.2 ends

/-- What an evaluation may rely on, the evaluations that it starts may rely on as well. -/
theorem Admits.starts {outer inner : Evaluation} (admits : contract.Admits outer)
    (starts : outer.Starts inner) : contract.Admits inner := by
  have inside := admits.policy.starts starts
  exact ⟨inside.pre, fitsTask_iff.mpr inside.fits⟩

end Contract

end Monkey
