import Monkey.Program.Basic
import Monkey.Program.Operator
import Monkey.Text.Numeral
import Monkey.Token.Basic

/-!
# The grammar of programs

This file says which token lists spell which trees, without reference to how a program is read.
Expressions are stratified by power: an expression of some power is an operand of any operation
that asks for that power or less. From the loosest to the tightest, the powers are those of tests
of equality, comparisons, sums, products, unary operations and calls; the last one is that of an
expression that stands on its own. The grammar has its own table of the operators of each power,
and reading turns out to go by the same one. A binary operation takes its left operand at its own
power and its right operand one above, so operations of one power group to the left.

Statements follow each other without a separator, and the semicolon behind one is optional. A
statement that lacks it is called bare. What follows a bare statement must not be read as a part
of it: the next statement must not start with a parenthesis or a minus sign.
-/

namespace Monkey

/-- The power of a test of equality. -/
abbrev equalityPower : Nat := 1

/-- The power of a comparison. -/
abbrev comparisonPower : Nat := 2

/-- The power of a sum or a difference. -/
abbrev sumPower : Nat := 3

/-- The power of a product or a quotient. -/
abbrev productPower : Nat := 4

/-- The power of a unary operation. -/
abbrev unaryPower : Nat := 5

/-- The power of a call. -/
abbrev callPower : Nat := 6

/-- The power of an expression that stands on its own. -/
abbrev atomPower : Nat := 7

/-- The power of a whole expression. -/
abbrev loosestPower : Nat := equalityPower

/-- The binary operators of each power, with the tokens that stand for them. -/
inductive BinaryOp.Spelled : (power : Nat) → Kind → BinaryOp → Prop where
  | equal : BinaryOp.Spelled equalityPower (.symbol .equal) .equal
  | notEqual : BinaryOp.Spelled equalityPower (.symbol .notEqual) .notEqual
  | less : BinaryOp.Spelled comparisonPower (.symbol .less) .less
  | greater : BinaryOp.Spelled comparisonPower (.symbol .greater) .greater
  | add : BinaryOp.Spelled sumPower (.symbol .plus) .add
  | subtract : BinaryOp.Spelled sumPower (.symbol .minus) .subtract
  | multiply : BinaryOp.Spelled productPower (.symbol .star) .multiply
  | divide : BinaryOp.Spelled productPower (.symbol .slash) .divide

/-- The unary operators, with the tokens that stand for them. -/
inductive UnaryOp.Spelled : Kind → UnaryOp → Prop where
  | not : UnaryOp.Spelled (.symbol .bang) .not
  | negate : UnaryOp.Spelled (.symbol .minus) .negate

/-- A literal is a sign, or none, and at least one digit, with a value of 64 bits. -/
inductive IntegerSpelled : List Char → Int → Prop where
  | mk {sign digits : List Char} {value : Int} (nonempty : digits ≠ [])
      (decimal : ∀ digit ∈ digits, digit.isDigit = true)
      (signed : (sign = [] ∨ sign = ['+']) ∧ value = Nat.ofDigitChars 10 digits 0 ∨
        sign = ['-'] ∧ value = -(Nat.ofDigitChars 10 digits 0 : Int))
      (fits : -9223372036854775808 ≤ value ∧ value ≤ 9223372036854775807) :
      IntegerSpelled (sign ++ digits) value

/-- The tokens that start a statement and also go on with an expression. -/
def Token.Joins (token : Token) : Prop :=
  token.kind = .symbol .leftParen ∨ token.kind = .symbol .minus

/-- Behind something bare, the tokens are not read as a part of it. -/
def Apart (bare : Bool) (tokens : List Token) : Prop :=
  bare = true → ∀ token ∈ tokens.head?, ¬ token.Joins

/-- The optional semicolon behind a statement; a bare statement has none. -/
inductive EndSpelled : (bare : Bool) → List Token → Prop where
  | absent : EndSpelled true []
  | present {semicolon : Token} (kind : semicolon.kind = .symbol .semicolon) :
      EndSpelled false [semicolon]

/-- Parameter names with a comma between any two of them. -/
inductive ParamsSpelled : List Token → List String → Prop where
  | none : ParamsSpelled [] []
  | first {name : Token} (nameKind : name.kind = .ident) : ParamsSpelled [name] [name.literal]
  | later {tokens : List Token} {params : List String} {comma name : Token}
      (earlier : ParamsSpelled tokens params) (nonempty : params ≠ [])
      (commaKind : comma.kind = .symbol .comma) (nameKind : name.kind = .ident) :
      ParamsSpelled (tokens ++ [comma, name]) (params ++ [name.literal])

mutual

/-- The tokens spell the expression as an operand of the given power. -/
inductive Expr.Spelled : (power : Nat) → List Token → Expr → Prop where
  | climb {power : Nat} {tokens : List Token} {expr : Expr}
      (tighter : Expr.Spelled (power + 1) tokens expr) : Expr.Spelled power tokens expr
  | binary {power : Nat} {op : BinaryOp} {lefts rights : List Token} {sign : Token}
      {left right : Expr} (leftSpelled : Expr.Spelled power lefts left)
      (signSpelled : op.Spelled power sign.kind)
      (rightSpelled : Expr.Spelled (power + 1) rights right) :
      Expr.Spelled power (lefts ++ sign :: rights) (.binary left op right)
  | unary {op : UnaryOp} {tokens : List Token} {sign : Token} {operand : Expr}
      (signSpelled : op.Spelled sign.kind)
      (operandSpelled : Expr.Spelled unaryPower tokens operand) :
      Expr.Spelled unaryPower (sign :: tokens) (.unary op operand)
  | call {tokens argTokens : List Token} {opening closing : Token} {callee : Expr}
      {args : List Expr} (calleeSpelled : Expr.Spelled callPower tokens callee)
      (openingKind : opening.kind = .symbol .leftParen)
      (argsSpelled : Expr.ArgsSpelled argTokens args)
      (closingKind : closing.kind = .symbol .rightParen) :
      Expr.Spelled callPower (tokens ++ opening :: (argTokens ++ [closing])) (.call callee args)
  | ident {name : Token} (nameKind : name.kind = .ident) :
      Expr.Spelled atomPower [name] (.ident name.literal)
  | int {literal : Token} {value : Int} (literalKind : literal.kind = .int)
      (valueSpelled : IntegerSpelled literal.literal.toList value) :
      Expr.Spelled atomPower [literal] (.int value)
  | str {literal : Token} (literalKind : literal.kind = .str) :
      Expr.Spelled atomPower [literal] (.str literal.literal)
  | yes {word : Token} (wordKind : word.kind = .keyword .trueWord) :
      Expr.Spelled atomPower [word] (.bool true)
  | no {word : Token} (wordKind : word.kind = .keyword .falseWord) :
      Expr.Spelled atomPower [word] (.bool false)
  | group {tokens : List Token} {opening closing : Token} {expr : Expr}
      (openingKind : opening.kind = .symbol .leftParen)
      (exprSpelled : Expr.Spelled loosestPower tokens expr)
      (closingKind : closing.kind = .symbol .rightParen) :
      Expr.Spelled atomPower (opening :: (tokens ++ [closing])) expr
  | ifThen {tokens branchTokens : List Token} {word opening closing : Token} {condition : Expr}
      {consequence : List Stmt} (wordKind : word.kind = .keyword .ifWord)
      (openingKind : opening.kind = .symbol .leftParen)
      (conditionSpelled : Expr.Spelled loosestPower tokens condition)
      (closingKind : closing.kind = .symbol .rightParen)
      (branchSpelled : Program.BlockSpelled branchTokens consequence) :
      Expr.Spelled atomPower (word :: opening :: (tokens ++ closing :: branchTokens))
        (.ifThen condition consequence)
  | ifElse {tokens branchTokens otherTokens : List Token} {word opening closing other : Token}
      {condition : Expr} {consequence alternative : List Stmt}
      (wordKind : word.kind = .keyword .ifWord)
      (openingKind : opening.kind = .symbol .leftParen)
      (conditionSpelled : Expr.Spelled loosestPower tokens condition)
      (closingKind : closing.kind = .symbol .rightParen)
      (branchSpelled : Program.BlockSpelled branchTokens consequence)
      (otherKind : other.kind = .keyword .elseWord)
      (otherSpelled : Program.BlockSpelled otherTokens alternative) :
      Expr.Spelled atomPower
        (word :: opening :: (tokens ++ closing :: (branchTokens ++ other :: otherTokens)))
        (.ifElse condition consequence alternative)
  | fn {paramTokens bodyTokens : List Token} {word opening closing : Token}
      {params : List String} {body : List Stmt} (wordKind : word.kind = .keyword .fnWord)
      (openingKind : opening.kind = .symbol .leftParen)
      (paramsSpelled : ParamsSpelled paramTokens params)
      (closingKind : closing.kind = .symbol .rightParen)
      (bodySpelled : Program.BlockSpelled bodyTokens body) :
      Expr.Spelled atomPower (word :: opening :: (paramTokens ++ closing :: bodyTokens))
        (.fn params body)

/-- Arguments with a comma between any two of them. -/
inductive Expr.ArgsSpelled : List Token → List Expr → Prop where
  | none : Expr.ArgsSpelled [] []
  | first {tokens : List Token} {arg : Expr} (argSpelled : Expr.Spelled loosestPower tokens arg) :
      Expr.ArgsSpelled tokens [arg]
  | later {tokens argTokens : List Token} {args : List Expr} {comma : Token} {arg : Expr}
      (earlier : Expr.ArgsSpelled tokens args) (nonempty : args ≠ [])
      (commaKind : comma.kind = .symbol .comma)
      (argSpelled : Expr.Spelled loosestPower argTokens arg) :
      Expr.ArgsSpelled (tokens ++ comma :: argTokens) (args ++ [arg])

/-- The tokens spell the statement. -/
inductive Stmt.Spelled : (bare : Bool) → List Token → Stmt → Prop where
  | letBe {bare : Bool} {tokens endTokens : List Token} {word name assign : Token} {value : Expr}
      (wordKind : word.kind = .keyword .letWord) (nameKind : name.kind = .ident)
      (assignKind : assign.kind = .symbol .assign)
      (valueSpelled : Expr.Spelled loosestPower tokens value)
      (endSpelled : EndSpelled bare endTokens) :
      Stmt.Spelled bare (word :: name :: assign :: (tokens ++ endTokens))
        (.letBe name.literal value)
  | ret {bare : Bool} {tokens endTokens : List Token} {word : Token} {value : Expr}
      (wordKind : word.kind = .keyword .returnWord)
      (valueSpelled : Expr.Spelled loosestPower tokens value)
      (endSpelled : EndSpelled bare endTokens) :
      Stmt.Spelled bare (word :: (tokens ++ endTokens)) (.ret value)
  | expr {bare : Bool} {tokens endTokens : List Token} {value : Expr}
      (valueSpelled : Expr.Spelled loosestPower tokens value)
      (endSpelled : EndSpelled bare endTokens) :
      Stmt.Spelled bare (tokens ++ endTokens) (.expr value)
  | block {tokens : List Token} {body : List Stmt}
      (bodySpelled : Program.BlockSpelled tokens body) : Stmt.Spelled false tokens (.block body)

/-- Statements in braces. -/
inductive Program.BlockSpelled : List Token → List Stmt → Prop where
  | mk {bare : Bool} {tokens : List Token} {opening closing : Token} {body : List Stmt}
      (openingKind : opening.kind = .symbol .leftBrace)
      (bodySpelled : Program.Spelled bare tokens body)
      (closingKind : closing.kind = .symbol .rightBrace) :
      Program.BlockSpelled (opening :: (tokens ++ [closing])) body

/-- The tokens spell the statements, of which the last one may be bare. -/
inductive Program.Spelled : (bare : Bool) → List Token → List Stmt → Prop where
  | nil : Program.Spelled false [] []
  | snoc {bare lastBare : Bool} {tokens lastTokens : List Token} {program : List Stmt}
      {last : Stmt} (earlier : Program.Spelled bare tokens program)
      (apart : Apart bare lastTokens)
      (lastSpelled : Stmt.Spelled lastBare lastTokens last) :
      Program.Spelled lastBare (tokens ++ lastTokens) (program ++ [last])

end

/-! ### Operators -/

/-- Reading takes the same tokens for unary operators. -/
theorem UnaryOp.spelled_iff {op : UnaryOp} {kind : Kind} :
    op.Spelled kind ↔ kind = .symbol op.symbol := by
  constructor
  · rintro ⟨⟩ <;> rfl
  · rintro rfl
    cases op with
    | not => exact .not
    | negate => exact .negate

/-- Reading takes the same tokens for binary operators, and gives each the same power. -/
theorem BinaryOp.spelled_iff {op : BinaryOp} {power : Nat} {kind : Kind} :
    op.Spelled power kind ↔ kind = .symbol op.symbol ∧ power = op.power := by
  constructor
  · rintro ⟨⟩ <;> exact ⟨rfl, rfl⟩
  · rintro ⟨rfl, rfl⟩
    cases op with
    | equal => exact .equal
    | notEqual => exact .notEqual
    | less => exact .less
    | greater => exact .greater
    | add => exact .add
    | subtract => exact .subtract
    | multiply => exact .multiply
    | divide => exact .divide

/-! ### First tokens -/

/-- The kinds of token that start an expression. -/
def exprStarts : List Kind :=
  [.ident, .int, .str, .keyword .trueWord, .keyword .falseWord, .keyword .ifWord,
    .keyword .fnWord, .symbol .leftParen, .symbol .bang, .symbol .minus]

theorem UnaryOp.Spelled.mem_exprStarts {op : UnaryOp} {kind : Kind} (spelled : op.Spelled kind) :
    kind ∈ exprStarts := by
  cases spelled <;> simp [exprStarts]

theorem Expr.Spelled.head : ∀ {power : Nat} {tokens : List Token} {expr : Expr},
    Expr.Spelled power tokens expr →
      ∃ token rest, tokens = token :: rest ∧ token.kind ∈ exprStarts
  | _, _, _, .climb tighter => tighter.head
  | _, _, _, .binary leftSpelled _ _ => by
      rcases leftSpelled.head with ⟨token, rest, rfl, starts⟩
      exact ⟨token, _, rfl, starts⟩
  | _, _, _, .unary signSpelled _ => ⟨_, _, rfl, signSpelled.mem_exprStarts⟩
  | _, _, _, .call calleeSpelled _ _ _ => by
      rcases calleeSpelled.head with ⟨token, rest, rfl, starts⟩
      exact ⟨token, _, rfl, starts⟩
  | _, _, _, .ident nameKind => ⟨_, _, rfl, nameKind ▸ by decide⟩
  | _, _, _, .int literalKind _ => ⟨_, _, rfl, literalKind ▸ by decide⟩
  | _, _, _, .str literalKind => ⟨_, _, rfl, literalKind ▸ by decide⟩
  | _, _, _, .yes wordKind => ⟨_, _, rfl, wordKind ▸ by decide⟩
  | _, _, _, .no wordKind => ⟨_, _, rfl, wordKind ▸ by decide⟩
  | _, _, _, .group openingKind _ _ => ⟨_, _, rfl, openingKind ▸ by decide⟩
  | _, _, _, .ifThen wordKind _ _ _ _ => ⟨_, _, rfl, wordKind ▸ by decide⟩
  | _, _, _, .ifElse wordKind _ _ _ _ _ _ => ⟨_, _, rfl, wordKind ▸ by decide⟩
  | _, _, _, .fn wordKind _ _ _ _ => ⟨_, _, rfl, wordKind ▸ by decide⟩
termination_by structural _ _ _ spelled => spelled

theorem Expr.Spelled.ne_nil {power : Nat} {tokens : List Token} {expr : Expr}
    (spelled : Expr.Spelled power tokens expr) : tokens ≠ [] := by
  rcases spelled.head with ⟨token, rest, rfl, _⟩
  simp

/-! ### Integer literals -/

theorem readDigits?_eq_some_iff {digits : List Char} {size : Nat} :
    readDigits? digits = some size ↔
      digits ≠ [] ∧ (∀ digit ∈ digits, digit.isDigit = true) ∧
        Nat.ofDigitChars 10 digits 0 = size := by
  rw [readDigits?, ← List.all_eq_true]
  split
  · rename_i spelled
    simp [spelled.1, spelled.2]
  · rename_i unspelled
    simp only [reduceCtorEq, false_iff]
    rintro ⟨nonempty, decimal, -⟩
    exact unspelled ⟨nonempty, decimal⟩

theorem inRange_iff {value : Int} :
    inRange value = true ↔ minInteger ≤ value ∧ value ≤ maxInteger := by
  simp [inRange]

theorem integerSpelled_of_readInteger? {literal : List Char} {value : Int}
    (reads : readInteger? literal = some value) : IntegerSpelled literal value := by
  simp only [readInteger?, Option.filter_eq_some_iff, inRange_iff] at reads
  rcases reads with ⟨found, fits⟩
  split at found <;> simp only [Option.map_eq_some_iff, readDigits?_eq_some_iff] at found <;>
    rcases found with ⟨size, ⟨nonempty, decimal, rfl⟩, rfl⟩
  · exact @IntegerSpelled.mk ['-'] _ _ nonempty decimal (.inr ⟨rfl, rfl⟩) fits
  · exact @IntegerSpelled.mk ['+'] _ _ nonempty decimal (.inl ⟨.inr rfl, rfl⟩) fits
  · exact @IntegerSpelled.mk [] _ _ nonempty decimal (.inl ⟨.inl rfl, rfl⟩) fits

theorem readInteger?_of_integerSpelled {literal : List Char} {value : Int}
    (spelled : IntegerSpelled literal value) : readInteger? literal = some value := by
  cases spelled with
  | @mk sign digits value nonempty decimal signed fits =>
      have size : readDigits? digits = some (Nat.ofDigitChars 10 digits 0) :=
        readDigits?_eq_some_iff.mpr ⟨nonempty, decimal, rfl⟩
      have inside := inRange_iff.mpr fits
      rcases signed with ⟨rfl | rfl, rfl⟩ | ⟨rfl, rfl⟩
      · rcases digits with _ | ⟨digit, rest⟩
        · exact absurd rfl nonempty
        · have isDigit := decimal digit (by simp)
          have unsigned : digit ≠ '-' ∧ digit ≠ '+' := by
            constructor <;> rintro rfl <;> simp [Char.isDigit] at isDigit
          simp [readInteger?, unsigned, size, inside]
      · simp [readInteger?, size, inside]
      · simp [readInteger?, size, inside]

/-- Reading a literal gives the value that it spells. -/
theorem readInteger?_eq_some_iff {literal : List Char} {value : Int} :
    readInteger? literal = some value ↔ IntegerSpelled literal value :=
  ⟨integerSpelled_of_readInteger?, readInteger?_of_integerSpelled⟩

end Monkey
