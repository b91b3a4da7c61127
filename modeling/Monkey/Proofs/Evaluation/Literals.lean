import Mathlib.Order.MinMax
import Mathlib.Order.Nat
import Monkey.Program.Basic

/-!
# Literals that make objects

Evaluating a string literal or a function literal makes an object. The body of a function is not
evaluated with it, so the literals in the body count for the calls of the function only. Function
literals inside of function literals give a program its nesting.
-/

namespace Monkey

/-- A literal for which an object is made. -/
inductive Literal where
  | str (text : String)
  | fn (params : List String) (body : List Stmt)

mutual

/-- The literals of an expression, those in the bodies of its functions apart. -/
def Expr.literals : Expr → List Literal
  | .ident _ | .int _ | .bool _ => []
  | .str text => [.str text]
  | .unary _ operand => operand.literals
  | .binary left _ right => left.literals ++ right.literals
  | .ifThen condition consequence => condition.literals ++ Program.literals consequence
  | .ifElse condition consequence alternative =>
    condition.literals ++ (Program.literals consequence ++ Program.literals alternative)
  | .fn params body => [.fn params body]
  | .call callee args => callee.literals ++ Expr.allLiterals args

/-- The literals of several expressions. -/
def Expr.allLiterals : List Expr → List Literal
  | [] => []
  | expr :: rest => expr.literals ++ Expr.allLiterals rest

/-- The literals of a statement. -/
def Stmt.literals : Stmt → List Literal
  | .letBe _ value | .ret value | .expr value => value.literals
  | .block body => Program.literals body

/-- The literals of a program. -/
def Program.literals : List Stmt → List Literal
  | [] => []
  | stmt :: rest => stmt.literals ++ Program.literals rest

end

/-! ### Function literals inside of function literals -/

/-- The program has the function literal, inside of as many others as `nesting` says. -/
inductive Program.HasFn (program : Program) : (nesting : Nat) → List String → List Stmt → Prop where
  | outermost {params : List String} {body : List Stmt}
      (member : .fn params body ∈ Program.literals program) : Program.HasFn program 0 params body
  | inside {nesting : Nat} {params innerParams : List String} {body innerBody : List Stmt}
      (outer : Program.HasFn program nesting params body)
      (member : .fn innerParams innerBody ∈ Program.literals body) :
      Program.HasFn program (nesting + 1) innerParams innerBody

mutual

/-- How many function literals an expression has inside of each other. -/
def Expr.nesting : Expr → Nat
  | .ident _ | .int _ | .bool _ | .str _ => 0
  | .unary _ operand => operand.nesting
  | .binary left _ right => max left.nesting right.nesting
  | .ifThen condition consequence => max condition.nesting (Program.nesting consequence)
  | .ifElse condition consequence alternative =>
    max condition.nesting (max (Program.nesting consequence) (Program.nesting alternative))
  | .fn _ body => Program.nesting body + 1
  | .call callee args => max callee.nesting (Expr.greatestNesting args)

/-- The greatest nesting of several expressions. -/
def Expr.greatestNesting : List Expr → Nat
  | [] => 0
  | expr :: rest => max expr.nesting (Expr.greatestNesting rest)

/-- How many function literals a statement has inside of each other. -/
def Stmt.nesting : Stmt → Nat
  | .letBe _ value | .ret value | .expr value => value.nesting
  | .block body => Program.nesting body

/-- How many function literals a program has inside of each other. -/
def Program.nesting : List Stmt → Nat
  | [] => 0
  | stmt :: rest => max stmt.nesting (Program.nesting rest)

end

section

variable {params : List String} {body : List Stmt}

mutual

theorem Expr.nesting_lt : ∀ expr : Expr, .fn params body ∈ expr.literals →
    Program.nesting body < expr.nesting
  | .ident _, member | .int _, member | .bool _, member => by simp [Expr.literals] at member
  | .str _, member => by simp [Expr.literals] at member
  | .unary _ operand, member => operand.nesting_lt member
  | .binary left _ right, member => by
      rw [Expr.nesting, lt_max_iff]
      exact (List.mem_append.mp member).imp left.nesting_lt right.nesting_lt
  | .ifThen condition consequence, member => by
      rw [Expr.nesting, lt_max_iff]
      exact (List.mem_append.mp member).imp condition.nesting_lt (Program.nesting_lt consequence)
  | .ifElse condition consequence alternative, member => by
      rw [Expr.nesting, lt_max_iff, lt_max_iff]
      refine (List.mem_append.mp member).imp condition.nesting_lt fun inBranch => ?_
      exact (List.mem_append.mp inBranch).imp (Program.nesting_lt consequence)
        (Program.nesting_lt alternative)
  | .fn _ _, member => by
      rw [Expr.literals, List.mem_singleton, Literal.fn.injEq] at member
      rw [member.2, Expr.nesting]
      exact Nat.lt_succ_self _
  | .call callee args, member => by
      rw [Expr.nesting, lt_max_iff]
      exact (List.mem_append.mp member).imp callee.nesting_lt (Expr.greatestNesting_lt args)
termination_by structural expr => expr

theorem Expr.greatestNesting_lt : ∀ exprs : List Expr, .fn params body ∈ Expr.allLiterals exprs →
    Program.nesting body < Expr.greatestNesting exprs
  | expr :: rest, member => by
      rw [Expr.greatestNesting, lt_max_iff]
      exact (List.mem_append.mp member).imp expr.nesting_lt (Expr.greatestNesting_lt rest)
termination_by structural exprs => exprs

theorem Stmt.nesting_lt : ∀ stmt : Stmt, .fn params body ∈ stmt.literals →
    Program.nesting body < stmt.nesting
  | .letBe _ value, member | .ret value, member | .expr value, member => value.nesting_lt member
  | .block body, member => Program.nesting_lt body member
termination_by structural stmt => stmt

theorem Program.nesting_lt : ∀ stmts : List Stmt, .fn params body ∈ Program.literals stmts →
    Program.nesting body < Program.nesting stmts
  | stmt :: rest, member => by
      rw [Program.nesting, lt_max_iff]
      exact (List.mem_append.mp member).imp stmt.nesting_lt (Program.nesting_lt rest)
termination_by structural stmts => stmts

end

end

/-- A function literal and those around it are no more than the nesting of the program says. -/
theorem Program.HasFn.lt_nesting {program : Program} {nesting : Nat} {params : List String}
    {body : List Stmt} (hasFn : Program.HasFn program nesting params body) :
    nesting + Program.nesting body < Program.nesting program := by
  induction hasFn with
  | outermost member =>
      have less := Program.nesting_lt program member
      omega
  | @inside nesting _ _ body _ _ member ih =>
      have less := Program.nesting_lt body member
      omega

end Monkey
