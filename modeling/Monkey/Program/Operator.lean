import Monkey.Token.Kind

/-!
# Operators

Two operators take one operand and eight take two. The latter come in four levels of binding power;
operators of one level group to the left, and a unary operator binds tighter than all of them.
-/

namespace Monkey

/-- Operators that stand before their operand. -/
inductive UnaryOp where
  | not | negate
deriving DecidableEq

namespace UnaryOp

/-- The symbol of a unary operator. -/
def symbol : UnaryOp → Symbol
  | not => .bang
  | negate => .minus

/-- The spelling of a unary operator. -/
def text (op : UnaryOp) : String := op.symbol.text

/-- The unary operator that a token of the given kind stands for. -/
def ofKind? : Kind → Option UnaryOp
  | .symbol .bang => some not
  | .symbol .minus => some negate
  | _ => none

theorem ofKind?_eq_some_iff {kind : Kind} {op : UnaryOp} :
    ofKind? kind = some op ↔ kind = .symbol op.symbol := by
  constructor
  · unfold ofKind?
    split <;> simp +contextual [symbol, eq_comm]
  · rintro rfl
    cases op <;> rfl

end UnaryOp

/-- Operators that stand between their operands. -/
inductive BinaryOp where
  | add | subtract | multiply | divide | less | greater | equal | notEqual
deriving DecidableEq

namespace BinaryOp

/-- The symbol of a binary operator. -/
def symbol : BinaryOp → Symbol
  | add => .plus
  | subtract => .minus
  | multiply => .star
  | divide => .slash
  | less => .less
  | greater => .greater
  | equal => .equal
  | notEqual => .notEqual

/-- The spelling of a binary operator. -/
def text (op : BinaryOp) : String := op.symbol.text

/-- The binary operator that a token of the given kind stands for. -/
def ofKind? : Kind → Option BinaryOp
  | .symbol .plus => some add
  | .symbol .minus => some subtract
  | .symbol .star => some multiply
  | .symbol .slash => some divide
  | .symbol .less => some less
  | .symbol .greater => some greater
  | .symbol .equal => some equal
  | .symbol .notEqual => some notEqual
  | _ => none

theorem ofKind?_eq_some_iff {kind : Kind} {op : BinaryOp} :
    ofKind? kind = some op ↔ kind = .symbol op.symbol := by
  constructor
  · unfold ofKind?
    split <;> simp +contextual [symbol, eq_comm]
  · rintro rfl
    cases op <;> rfl

/-- How tightly a binary operator binds: comparisons less than sums, sums less than products, and
tests for equality least of all. -/
def power : BinaryOp → Nat
  | equal | notEqual => 1
  | less | greater => 2
  | add | subtract => 3
  | multiply | divide => 4

end BinaryOp

end Monkey
