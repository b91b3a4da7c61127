import Monkey.Program.Operator

/-!
# Programs

A program is a list of statements, and so is the body of a block, of a branch or of a function.
Expressions and statements contain each other. Parentheses leave no trace: a tree stands for its
grouping by its shape.
-/

namespace Monkey

mutual

/-- What can be evaluated to a value. -/
inductive Expr where
  /-- A name. -/
  | ident (name : String)
  /-- An integer literal. -/
  | int (value : Int)
  /-- One of the two truth values. -/
  | bool (value : Bool)
  /-- A string literal. -/
  | str (text : String)
  /-- A unary operator and its operand. -/
  | unary (op : UnaryOp) (operand : Expr)
  /-- A binary operator between its operands. -/
  | binary (left : Expr) (op : BinaryOp) (right : Expr)
  /-- A choice with one branch. -/
  | ifThen (condition : Expr) (consequence : List Stmt)
  /-- A choice between two branches. -/
  | ifElse (condition : Expr) (consequence alternative : List Stmt)
  /-- A function with its parameter names. -/
  | fn (params : List String) (body : List Stmt)
  /-- The application of a callee to arguments. -/
  | call (callee : Expr) (args : List Expr)

/-- What a program is made of. -/
inductive Stmt where
  /-- Binds a name. -/
  | letBe (name : String) (value : Expr)
  /-- Leaves the function, or the program, with a value. -/
  | ret (value : Expr)
  /-- Evaluates an expression. -/
  | expr (value : Expr)
  /-- Statements in braces. -/
  | block (body : List Stmt)

end

/-- A sequence of statements. -/
abbrev Program := List Stmt

/-! ### Equality of trees -/

mutual

/-- Whether two expressions are the same tree. -/
def Expr.same : Expr → Expr → Bool
  | .ident name, .ident name' => name == name'
  | .int value, .int value' => value == value'
  | .bool value, .bool value' => value == value'
  | .str text, .str text' => text == text'
  | .unary op operand, .unary op' operand' => op == op' && operand.same operand'
  | .binary left op right, .binary left' op' right' =>
    left.same left' && op == op' && right.same right'
  | .ifThen condition consequence, .ifThen condition' consequence' =>
    condition.same condition' && Program.same consequence consequence'
  | .ifElse condition consequence alternative, .ifElse condition' consequence' alternative' =>
    condition.same condition' && Program.same consequence consequence' &&
      Program.same alternative alternative'
  | .fn params body, .fn params' body' => params == params' && Program.same body body'
  | .call callee args, .call callee' args' => callee.same callee' && Expr.allSame args args'
  | _, _ => false

/-- Whether two lists hold the same expressions. -/
def Expr.allSame : List Expr → List Expr → Bool
  | [], [] => true
  | expr :: rest, expr' :: rest' => expr.same expr' && Expr.allSame rest rest'
  | _, _ => false

/-- Whether two statements are the same tree. -/
def Stmt.same : Stmt → Stmt → Bool
  | .letBe name value, .letBe name' value' => name == name' && value.same value'
  | .ret value, .ret value' => value.same value'
  | .expr value, .expr value' => value.same value'
  | .block body, .block body' => Program.same body body'
  | _, _ => false

/-- Whether two programs hold the same statements. -/
def Program.same : List Stmt → List Stmt → Bool
  | [], [] => true
  | stmt :: rest, stmt' :: rest' => stmt.same stmt' && Program.same rest rest'
  | _, _ => false

end

mutual

theorem Expr.same_iff : ∀ (first second : Expr), first.same second = true ↔ first = second
  | .ident name, second => by cases second <;> simp [Expr.same]
  | .int value, second => by cases second <;> simp [Expr.same]
  | .bool value, second => by cases second <;> simp [Expr.same]
  | .str text, second => by cases second <;> simp [Expr.same]
  | .unary op operand, second => by
    cases second <;> simp [Expr.same, Expr.same_iff operand]
  | .binary left op right, second => by
    cases second <;> simp [Expr.same, Expr.same_iff left, Expr.same_iff right,
      and_assoc]
  | .ifThen condition consequence, second => by
    cases second <;> simp [Expr.same, Expr.same_iff condition,
      Program.same_iff consequence]
  | .ifElse condition consequence alternative, second => by
    cases second <;> simp [Expr.same, Expr.same_iff condition,
      Program.same_iff consequence, Program.same_iff alternative, and_assoc]
  | .fn params body, second => by
    cases second <;> simp [Expr.same, Program.same_iff body]
  | .call callee args, second => by
    cases second <;> simp [Expr.same, Expr.same_iff callee,
      Expr.allSame_iff args]

theorem Expr.allSame_iff : ∀ (first second : List Expr),
    Expr.allSame first second = true ↔ first = second
  | [], second => by cases second <;> simp [Expr.allSame]
  | expr :: rest, second => by
    cases second <;> simp [Expr.allSame, Expr.same_iff expr,
      Expr.allSame_iff rest]

theorem Stmt.same_iff : ∀ (first second : Stmt), first.same second = true ↔ first = second
  | .letBe name value, second => by
    cases second <;> simp [Stmt.same, Expr.same_iff value]
  | .ret value, second => by cases second <;> simp [Stmt.same, Expr.same_iff value]
  | .expr value, second => by cases second <;> simp [Stmt.same, Expr.same_iff value]
  | .block body, second => by cases second <;> simp [Stmt.same, Program.same_iff body]

theorem Program.same_iff : ∀ (first second : List Stmt),
    Program.same first second = true ↔ first = second
  | [], second => by cases second <;> simp [Program.same]
  | stmt :: rest, second => by
    cases second <;> simp [Program.same, Stmt.same_iff stmt,
      Program.same_iff rest]

end

instance : DecidableEq Expr := fun _ _ => decidable_of_iff _ (Expr.same_iff _ _)

instance : DecidableEq Stmt := fun _ _ => decidable_of_iff _ (Stmt.same_iff _ _)

end Monkey
