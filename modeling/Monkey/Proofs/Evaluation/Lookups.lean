import Monkey.Program.Basic

/-!
# Names that are looked up

An evaluation looks up the names of its program only: those in the program itself, and, when a function
that it has made is called, those in the body of that.
-/

namespace Monkey

mutual

/-- The names that an expression looks up, those in the bodies of its functions included. -/
def Expr.lookups : Expr → List String
  | .ident name => [name]
  | .int _ | .bool _ | .str _ => []
  | .unary _ operand => operand.lookups
  | .binary left _ right => left.lookups ++ right.lookups
  | .ifThen condition consequence => condition.lookups ++ Program.lookups consequence
  | .ifElse condition consequence alternative =>
    condition.lookups ++ (Program.lookups consequence ++ Program.lookups alternative)
  | .fn _ body => Program.lookups body
  | .call callee args => callee.lookups ++ Expr.allLookups args

/-- The names that several expressions look up. -/
def Expr.allLookups : List Expr → List String
  | [] => []
  | expr :: rest => expr.lookups ++ Expr.allLookups rest

/-- The names that a statement looks up. -/
def Stmt.lookups : Stmt → List String
  | .letBe _ value | .ret value | .expr value => value.lookups
  | .block body => Program.lookups body

/-- The names that a program looks up. -/
def Program.lookups : List Stmt → List String
  | [] => []
  | stmt :: rest => stmt.lookups ++ Program.lookups rest

end

theorem Expr.allLookups_append (first second : List Expr) :
    Expr.allLookups (first ++ second) = Expr.allLookups first ++ Expr.allLookups second := by
  induction first with
  | nil => rfl
  | cons expr rest ih => simp [Expr.allLookups, ih]

theorem Program.lookups_append (first second : Program) :
    Program.lookups (first ++ second) = Program.lookups first ++ Program.lookups second := by
  induction first with
  | nil => rfl
  | cons stmt rest ih => simp [Program.lookups, ih]

end Monkey
