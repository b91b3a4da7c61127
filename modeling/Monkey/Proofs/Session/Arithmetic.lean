import Mathlib.Algebra.Group.Nat.Defs
import Monkey.Proofs.Reading.Joining
import Monkey.Proofs.Session.Lines
import Monkey.Proofs.Store.Basic

/-!
# Arithmetic

A line that spells an arithmetic expression is answered by the value that the expression has in
mathematics, as long as every operation in it keeps to the 64 bits of an integer and divides by
nothing but what is not zero. Otherwise the answer tells of the first operation that does not, where
operands come before their operation and the left one before the right one.

The grammar of arithmetic is stated here once more and on its own: products bind tighter than sums, a
sign binds tighter than products, and operations of one kind group to the left. It is contained in the
grammar of programs.
-/

namespace Monkey

/-- The operations between two integers that give an integer. -/
inductive ArithmeticOp where
  | add | subtract | multiply | divide
deriving DecidableEq

namespace ArithmeticOp

/-- The operator of the language. -/
def binary : ArithmeticOp → BinaryOp
  | add => .add
  | subtract => .subtract
  | multiply => .multiply
  | divide => .divide

/-- The result over the unbounded integers; division rounds towards zero. -/
def exact (op : ArithmeticOp) (left right : Int) : Int :=
  match op with
  | add => left + right
  | subtract => left - right
  | multiply => left * right
  | divide => left.tdiv right

end ArithmeticOp

/-- What is calculated from integer literals. -/
inductive Arithmetic where
  | literal (size : Nat)
  | negation (operand : Arithmetic)
  | operation (left : Arithmetic) (op : ArithmeticOp) (right : Arithmetic)

/-- A single operation, with the values of its operands. -/
inductive Operation where
  | negation (operand : Int)
  | binary (left : Int) (op : ArithmeticOp) (right : Int)
deriving DecidableEq

namespace Operation

/-- The result over the unbounded integers. -/
def result : Operation → Int
  | negation operand => -operand
  | binary left op right => op.exact left right

/-- Whether something is divided by zero. -/
def dividesByZero : Operation → Bool
  | negation _ => false
  | binary _ op right => op = .divide && right = 0

/-- Whether the operation has no result among the integers of the language. -/
def fails (operation : Operation) : Bool := operation.dividesByZero || !inRange operation.result

/-- What is said of an operation that fails. -/
def complaint (operation : Operation) : String :=
  "ERROR: " ++
    if operation.dividesByZero then "division by zero"
    else
      match operation with
      | negation operand => "integer overflow: -" ++ writeInteger operand
      | binary left op right =>
        "integer overflow: " ++ writeInteger left ++ " " ++ op.binary.text ++ " " ++
          writeInteger right

end Operation

namespace Arithmetic

/-- The value over the unbounded integers. -/
def value : Arithmetic → Int
  | literal size => size
  | negation operand => -operand.value
  | operation left op right => op.exact left.value right.value

/-- All operations from left to right, each behind those of its operands. -/
def operations : Arithmetic → List Operation
  | literal _ => []
  | negation operand => operand.operations ++ [.negation operand.value]
  | operation left op right =>
    left.operations ++ (right.operations ++ [.binary left.value op right.value])

/-- The tree of the language. -/
def tree : Arithmetic → Expr
  | literal size => .int size
  | negation operand => .unary .negate operand.tree
  | operation left op right => .binary left.tree op.binary right.tree

/-- The levels of the grammar, from the loosest one. -/
inductive Level where
  | sum | product | factor

/-- The tokens spell the arithmetic expression at a level of the grammar. -/
inductive Spelled : Level → List Token → Arithmetic → Prop where
  | sum {lefts rights : List Token} {sign : Token} {left right : Arithmetic} {op : ArithmeticOp}
      (additive : op = .add ∨ op = .subtract) (leftSpelled : Spelled .sum lefts left)
      (signKind : sign.kind = .symbol op.binary.symbol)
      (rightSpelled : Spelled .product rights right) :
      Spelled .sum (lefts ++ sign :: rights) (.operation left op right)
  | ofProduct {tokens : List Token} {arithmetic : Arithmetic}
      (spelled : Spelled .product tokens arithmetic) : Spelled .sum tokens arithmetic
  | product {lefts rights : List Token} {sign : Token} {left right : Arithmetic} {op : ArithmeticOp}
      (multiplicative : op = .multiply ∨ op = .divide) (leftSpelled : Spelled .product lefts left)
      (signKind : sign.kind = .symbol op.binary.symbol)
      (rightSpelled : Spelled .factor rights right) :
      Spelled .product (lefts ++ sign :: rights) (.operation left op right)
  | ofFactor {tokens : List Token} {arithmetic : Arithmetic}
      (spelled : Spelled .factor tokens arithmetic) : Spelled .product tokens arithmetic
  | negation {tokens : List Token} {sign : Token} {operand : Arithmetic}
      (signKind : sign.kind = .symbol .minus) (operandSpelled : Spelled .factor tokens operand) :
      Spelled .factor (sign :: tokens) (.negation operand)
  | literal {numeral : Token} {size : Nat} (numeralKind : numeral.kind = .int)
      (digits : readDigits? numeral.literal.toList = some size) (fits : size < 2 ^ 63) :
      Spelled .factor [numeral] (.literal size)
  | group {tokens : List Token} {opening closing : Token} {arithmetic : Arithmetic}
      (openingKind : opening.kind = .symbol .leftParen)
      (spelled : Spelled .sum tokens arithmetic) (closingKind : closing.kind = .symbol .rightParen) :
      Spelled .factor (opening :: (tokens ++ [closing])) arithmetic

end Arithmetic

/-! ### Reading -/

namespace Arithmetic

/-- The power of the expressions at a level. -/
def Level.power : Level → Nat
  | sum => sumPower
  | product => productPower
  | factor => unaryPower

theorem Spelled.tree {level : Level} {tokens : List Token} {arithmetic : Arithmetic}
    (spelled : Spelled level tokens arithmetic) :
    Expr.Spelled level.power tokens arithmetic.tree := by
  induction spelled with
  | sum additive _ signKind _ left right =>
      rcases additive with rfl | rfl
      · exact .binary left (signKind ▸ .add) right
      · exact .binary left (signKind ▸ .subtract) right
  | ofProduct _ tighter => exact .climb tighter
  | product multiplicative _ signKind _ left right =>
      rcases multiplicative with rfl | rfl
      · exact .binary left (signKind ▸ .multiply) right
      · exact .binary left (signKind ▸ .divide) right
  | ofFactor _ tighter => exact .climb tighter
  | negation signKind _ operand => exact .unary (signKind ▸ .negate) operand
  | @literal numeral size numeralKind digits fits =>
      rcases readDigits?_eq_some_iff.mp digits with ⟨nonempty, decimal, rfl⟩
      have spelled := @IntegerSpelled.mk [] _ _ nonempty decimal (.inl ⟨.inl rfl, rfl⟩) (by omega)
      have atom := Expr.Spelled.int numeralKind spelled
      exact atom.mono (by decide)
  | group openingKind _ closingKind inner =>
      have atom := Expr.Spelled.group openingKind (inner.mono (by decide)) closingKind
      exact atom.mono (by decide)

theorem Spelled.parseText {source : String} {arithmetic : Arithmetic}
    (spelled : Spelled .sum (tokensBeforeEnd source) arithmetic) :
    Monkey.parseText source = ([.expr arithmetic.tree], []) := by
  have whole : Stmt.Spelled true (tokensBeforeEnd source ++ []) (.expr arithmetic.tree) :=
    .expr (spelled.tree.mono (by decide)) .absent
  rw [List.append_nil] at whole
  exact parseText_eq_iff_spelled.mpr ⟨true, whole.alone⟩

end Arithmetic

/-! ### Calculating -/

namespace Operation

/-- The fault of an operation that fails. -/
def fault (operation : Operation) : Fault :=
  if operation.dividesByZero then .divisionByZero
  else
    match operation with
    | negation operand => .negationOverflow operand
    | binary left op right => .integerOverflow left op.binary right

/-- What the operation gives. -/
def answer (operation : Operation) : Except Fault Value :=
  if operation.fails then .error operation.fault else .ok (.int operation.result)

theorem code_fault (operation : Operation) :
    (Value.error operation.fault).code = operation.complaint := by
  cases zero : operation.dividesByZero with
  | true =>
      simp only [fault, complaint, zero, if_true]
      rfl
  | false =>
      simp only [fault, complaint, zero, Bool.false_eq_true, if_false]
      cases operation with
      | negation => rfl
      | binary => rfl

theorem apply_negate (operand : Int) :
    UnaryOp.negate.apply (.int operand) = (negation operand).answer := by
  cases inside : inRange (-operand) <;>
    simp [UnaryOp.apply, answer, fails, fault, dividesByZero, result, inside]

theorem inBounds_eq_answer {left right result : Int} {op : ArithmeticOp}
    (exact : (binary left op right).result = result)
    (divides : (binary left op right).dividesByZero = false) :
    op.binary.inBounds left right result = (binary left op right).answer := by
  subst exact
  cases inside : inRange (binary left op right).result <;>
    simp [BinaryOp.inBounds, answer, fails, fault, divides, inside]

theorem apply_binary (fresh : Nat) (left : Int) (op : ArithmeticOp) (right : Int) :
    op.binary.apply fresh (.int left) (.int right) = (binary left op right).answer := by
  change op.binary.applyInt left right = _
  cases op with
  | divide =>
      by_cases zero : right = 0
      · simp [ArithmeticOp.binary, BinaryOp.applyInt, answer, fails, fault, dividesByZero, zero]
      · rw [← inBounds_eq_answer rfl (by simp [dividesByZero, zero])]
        simp [ArithmeticOp.binary, BinaryOp.applyInt, zero, result, ArithmeticOp.exact]
  | _ => exact inBounds_eq_answer rfl rfl

end Operation

namespace Arithmetic

/-- What the expression is evaluated to: its value, or the fault of the first operation that fails. -/
def outcome (arithmetic : Arithmetic) : Value :=
  match arithmetic.operations.find? Operation.fails with
  | none => .int arithmetic.value
  | some failing => .error failing.fault

theorem outcome_of_failing {arithmetic : Arithmetic} {failing : Operation}
    (found : arithmetic.operations.find? Operation.fails = some failing) :
    arithmetic.outcome = .error failing.fault := by
  simp [outcome, found]

theorem outcome_of_fine {arithmetic : Arithmetic}
    (fine : arithmetic.operations.find? Operation.fails = none) :
    arithmetic.outcome = .int arithmetic.value := by
  simp [outcome, fine]

/-- Where nothing has failed before, the last operation decides. -/
theorem outcome_of_last {arithmetic : Arithmetic} {earlier : List Operation} {last : Operation}
    (operations : arithmetic.operations = earlier ++ [last])
    (fine : earlier.find? Operation.fails = none) (value : arithmetic.value = last.result)
    {make : Nat → Except Fault Value} {machine : Machine}
    (makes : make machine.store.fresh = last.answer) :
    ∃ later, Run.answer make machine = some (arithmetic.outcome, later) := by
  simp only [Run.answer, Store.answer, makes, Operation.answer, outcome, operations,
    List.find?_append, fine, Option.none_or, List.find?_singleton, value]
  cases last.fails with
  | true => exact ⟨_, rfl⟩
  | false => exact ⟨_, rfl⟩

/-- Where nothing has failed before an operand, either it fails itself or the run goes on. -/
theorem thenPlain_outcome {part whole : Arithmetic} {earlier rest : List Operation}
    (operations : whole.operations = earlier ++ (part.operations ++ rest))
    (fine : earlier.find? Operation.fails = none) {first : Run} {next : Value → Run}
    {machine later : Machine} (ran : first machine = some (part.outcome, later))
    (goesOn : part.operations.find? Operation.fails = none →
      ∃ last, next (.int part.value) later = some (whole.outcome, last)) :
    ∃ last, first.thenPlain next machine = some (whole.outcome, last) := by
  cases found : part.operations.find? Operation.fails with
  | some failing =>
      rw [outcome_of_failing found] at ran
      have fails : whole.operations.find? Operation.fails = some failing := by
        simp [operations, List.find?_append, fine, found]
      rw [Run.thenPlain_of_carrier ran rfl, outcome_of_failing fails]
      exact ⟨later, rfl⟩
  | none =>
      rw [outcome_of_fine found] at ran
      rw [Run.thenPlain_of_plain ran rfl]
      exact goesOn found

/-- Whatever the machine and however deep calls may nest, the tree is evaluated to the outcome. -/
theorem eval_tree (call : Value → List Value → Run) (arithmetic : Arithmetic) (machine : Machine) :
    ∃ later, arithmetic.tree.eval call machine = some (arithmetic.outcome, later) := by
  induction arithmetic generalizing machine with
  | literal size => exact ⟨machine, rfl⟩
  | negation operand ih =>
      rcases ih machine with ⟨later, ran⟩
      have operations : (negation operand).operations =
          [] ++ (operand.operations ++ [.negation operand.value]) := rfl
      apply thenPlain_outcome operations rfl ran
      intro found
      exact outcome_of_last rfl found rfl (Operation.apply_negate operand.value)
  | operation left op right ihLeft ihRight =>
      rcases ihLeft machine with ⟨middle, leftRan⟩
      rcases ihRight middle with ⟨later, rightRan⟩
      have operations : (operation left op right).operations = left.operations ++
          (right.operations ++ [.binary left.value op right.value]) := rfl
      apply thenPlain_outcome (operations.trans (List.nil_append _).symm) rfl leftRan
      intro leftFound
      apply thenPlain_outcome operations leftFound rightRan
      intro rightFound
      have earlier : (left.operations ++ right.operations).find? Operation.fails = none := by
        rw [List.find?_append, leftFound, rightFound, Option.none_or]
      exact outcome_of_last (List.append_assoc _ _ _).symm earlier rfl
        (Operation.apply_binary _ left.value op right.value)

theorem eval_program (arithmetic : Arithmetic) (fuel : Nat) (env : Env) (store : Store) :
    ∃ later, Program.eval fuel env [.expr arithmetic.tree] store =
      some (arithmetic.outcome, later) := by
  rcases arithmetic.eval_tree (Value.apply fuel) ⟨env, store⟩ with ⟨last, ran⟩
  refine ⟨last.store, Program.eval_eq_some_iff.mpr ⟨arithmetic.outcome, last, ?_, ?_, rfl⟩⟩
  · cases found : arithmetic.operations.find? Operation.fails with
    | some failing =>
        rw [outcome_of_failing found] at ran ⊢
        exact Run.thenPlain_of_carrier ran rfl
    | none =>
        rw [outcome_of_fine found] at ran ⊢
        exact Run.thenPlain_of_plain ran rfl
  · unfold outcome
    split
    · rfl
    · rfl

end Arithmetic

/-- A line that spells an arithmetic expression puts out the value of the expression if none of its
operations fails, and else what is said of the first one that does. -/
theorem Session.runLine_arithmetic {source : String} {arithmetic : Arithmetic}
    (spelled : Arithmetic.Spelled .sum (tokensBeforeEnd source) arithmetic) (session : Session)
    (fuel : Nat) :
    ∃ output later, session.runLine fuel source = some (output, later) ∧
      ((∀ operation ∈ arithmetic.operations, operation.fails = false) →
        output = writeInteger arithmetic.value) ∧
      ∀ operation, arithmetic.operations.find? Operation.fails = some operation →
        output = operation.complaint := by
  rcases arithmetic.eval_program fuel session.env session.store with ⟨store, ends⟩
  refine ⟨arithmetic.outcome.code, _, runLine_of_ends spelled.parseText ends, ?_, ?_⟩
  · intro fine
    have found : arithmetic.operations.find? Operation.fails = none := by
      apply List.find?_eq_none.mpr
      intro operation member
      rw [fine operation member]
      exact Bool.false_ne_true
    rw [Arithmetic.outcome_of_fine found]
    rfl
  · intro operation found
    rw [Arithmetic.outcome_of_failing found]
    exact operation.code_fault

/-- The difference overflows before anything is divided by zero. -/
theorem Session.runLine_overflow_then_zero :
    ∃ later, Session.start.runLine 0 "(2 - -9223372036854775807) / 0" =
      some ("ERROR: integer overflow: 2 - -9223372036854775807", later) := by
  have tokens : tokensBeforeEnd "(2 - -9223372036854775807) / 0" =
      (⟨.symbol .leftParen, "(", ⟨0, 1⟩⟩ ::
        (([⟨.int, "2", ⟨1, 2⟩⟩] ++ ⟨.symbol .minus, "-", ⟨3, 4⟩⟩ ::
          ⟨.symbol .minus, "-", ⟨5, 6⟩⟩ :: [⟨.int, "9223372036854775807", ⟨6, 25⟩⟩]) ++
        [⟨.symbol .rightParen, ")", ⟨25, 26⟩⟩])) ++
      ⟨.symbol .slash, "/", ⟨27, 28⟩⟩ :: [⟨.int, "0", ⟨29, 30⟩⟩] := by
    decide +kernel
  have two : Arithmetic.Spelled .factor [⟨.int, "2", ⟨1, 2⟩⟩] (.literal 2) :=
    .literal rfl (by decide +kernel) (by decide)
  have most : Arithmetic.Spelled .factor [⟨.int, "9223372036854775807", ⟨6, 25⟩⟩]
      (.literal 9223372036854775807) :=
    .literal rfl (by decide +kernel) (by decide)
  have zero : Arithmetic.Spelled .factor [⟨.int, "0", ⟨29, 30⟩⟩] (.literal 0) :=
    .literal rfl (by decide +kernel) (by decide)
  have spelled : Arithmetic.Spelled .sum (tokensBeforeEnd "(2 - -9223372036854775807) / 0")
      (.operation (.operation (.literal 2) .subtract (.negation (.literal 9223372036854775807)))
        .divide (.literal 0)) := by
    rw [tokens]
    apply Arithmetic.Spelled.ofProduct
    apply Arithmetic.Spelled.product (.inr rfl) (.ofFactor (.group rfl _ rfl)) rfl zero
    exact .sum (.inr rfl) (.ofProduct (.ofFactor two)) rfl (.ofFactor (.negation rfl most))
  rcases Session.runLine_arithmetic spelled Session.start 0 with ⟨output, later, ran, -, first⟩
  have text : (Operation.binary 2 .subtract (-9223372036854775807)).complaint =
      "ERROR: integer overflow: 2 - -9223372036854775807" := by
    decide +kernel
  have complaint := first (.binary 2 .subtract (-9223372036854775807)) (by decide +kernel)
  rw [complaint, text] at ran
  exact ⟨later, ran⟩

end Monkey
