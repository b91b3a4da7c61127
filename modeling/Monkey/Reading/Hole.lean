import Monkey.Program.Basic

/-!
# Trees with a hole

While a program is read, what has been read of it is a tree with one part missing: the part that
is read next. A `StmtHole` is a program that lacks a statement, an `ExprHole` one that lacks an
expression. Both are described from the hole outwards, so that filling the hole takes one step;
lists of parts that stand before the hole are kept latest first.

Statements of the program itself are not kept: each is given away as soon as it is complete.
-/

namespace Monkey

mutual

/-- The place of a statement in a program. -/
inductive StmtHole where
  /-- A statement of the program itself. -/
  | program
  /-- A statement of a block. -/
  | block (earlier : List Stmt) (outer : StmtHole)
  /-- A statement of the first branch of a choice. -/
  | consequence (condition : Expr) (earlier : List Stmt) (outer : ExprHole)
  /-- A statement of the second branch of a choice. -/
  | alternative (condition : Expr) (consequence earlier : List Stmt) (outer : ExprHole)
  /-- A statement of the body of a function. -/
  | body (params : List String) (earlier : List Stmt) (outer : ExprHole)

/-- The place of an expression in a program. -/
inductive ExprHole where
  /-- The value that a name is bound to. -/
  | letValue (name : String) (outer : StmtHole)
  /-- The value that a return statement gives. -/
  | retValue (outer : StmtHole)
  /-- An expression that is a statement. -/
  | statement (outer : StmtHole)
  /-- The operand of a unary operator. -/
  | operand (op : UnaryOp) (outer : ExprHole)
  /-- The right operand of a binary operator. -/
  | right (left : Expr) (op : BinaryOp) (outer : ExprHole)
  /-- An expression in parentheses. -/
  | group (outer : ExprHole)
  /-- The condition of a choice. -/
  | condition (outer : ExprHole)
  /-- An argument of a call. -/
  | argument (callee : Expr) (earlier : List Expr) (outer : ExprHole)

end

/-- Completes the operations that bind at least as tightly as `power`, from the hole outwards; gives
the operand that they make up and the place of that operand. -/
def ExprHole.settle (power : Nat) (value : Expr) : ExprHole → Expr × ExprHole
  | .operand op outer => outer.settle power (.unary op value)
  | .right left op outer =>
    if power ≤ op.power then outer.settle power (.binary left op value)
    else (value, .right left op outer)
  | hole => (value, hole)

end Monkey
