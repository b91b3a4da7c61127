import Monkey.Proofs.Reading.Feed
import Monkey.Proofs.Reading.Grammar

/-!
# Soundness of reading

A program that is read without an error is derived by the grammar from the tokens that were
taken. The invariant of reading is `Reading.Spelled`: the tokens taken so far spell what the state
holds, that is, the complete statements of the program, and each hole around the place where
reading is. An expression hole also says which power an expression needs to fill it, and whether
it stands behind a bare statement, so that its first token must not go on with that.
-/

namespace Monkey

/-! ### The invariant -/

mutual

/-- The tokens spell the program up to the place of a statement. -/
inductive StmtHole.Spelled : StmtHole → (bare : Bool) → List Token → Program → Prop where
  | program {bare : Bool} {tokens : List Token} {program : Program}
      (spelled : Program.Spelled bare tokens program) :
      StmtHole.Spelled .program bare tokens program
  | block {outer : StmtHole} {outerBare bare : Bool} {tokens bodyTokens : List Token}
      {opening : Token} {earlier : List Stmt} {program : Program}
      (outerSpelled : StmtHole.Spelled outer outerBare tokens program)
      (openingKind : opening.kind = .symbol .leftBrace)
      (earlierSpelled : Program.Spelled bare bodyTokens earlier.reverse) :
      StmtHole.Spelled (.block earlier outer) bare (tokens ++ opening :: bodyTokens) program
  | consequence {outer : ExprHole} {power : Nat} {guarded bare : Bool}
      {tokens testTokens bodyTokens : List Token} {word opening closing brace : Token}
      {condition : Expr} {earlier : List Stmt} {program : Program}
      (outerSpelled : ExprHole.Spelled outer power guarded tokens program)
      (wordKind : word.kind = .keyword .ifWord) (openingKind : opening.kind = .symbol .leftParen)
      (conditionSpelled : Expr.Spelled loosestPower testTokens condition)
      (closingKind : closing.kind = .symbol .rightParen)
      (braceKind : brace.kind = .symbol .leftBrace)
      (earlierSpelled : Program.Spelled bare bodyTokens earlier.reverse) :
      StmtHole.Spelled (.consequence condition earlier outer) bare
        (tokens ++ word :: opening :: (testTokens ++ closing :: brace :: bodyTokens)) program
  | alternative {outer : ExprHole} {power : Nat} {guarded bare : Bool}
      {tokens testTokens branchTokens bodyTokens : List Token}
      {word opening closing other brace : Token} {condition : Expr}
      {consequence earlier : List Stmt} {program : Program}
      (outerSpelled : ExprHole.Spelled outer power guarded tokens program)
      (wordKind : word.kind = .keyword .ifWord) (openingKind : opening.kind = .symbol .leftParen)
      (conditionSpelled : Expr.Spelled loosestPower testTokens condition)
      (closingKind : closing.kind = .symbol .rightParen)
      (branchSpelled : Program.BlockSpelled branchTokens consequence)
      (otherKind : other.kind = .keyword .elseWord)
      (braceKind : brace.kind = .symbol .leftBrace)
      (earlierSpelled : Program.Spelled bare bodyTokens earlier.reverse) :
      StmtHole.Spelled (.alternative condition consequence earlier outer) bare
        (tokens ++ word :: opening ::
          (testTokens ++ closing :: (branchTokens ++ other :: brace :: bodyTokens))) program
  | body {outer : ExprHole} {power : Nat} {guarded bare : Bool}
      {tokens paramTokens bodyTokens : List Token} {word opening closing brace : Token}
      {params : List String} {earlier : List Stmt} {program : Program}
      (outerSpelled : ExprHole.Spelled outer power guarded tokens program)
      (wordKind : word.kind = .keyword .fnWord) (openingKind : opening.kind = .symbol .leftParen)
      (paramsSpelled : ParamsSpelled paramTokens params)
      (closingKind : closing.kind = .symbol .rightParen)
      (braceKind : brace.kind = .symbol .leftBrace)
      (earlierSpelled : Program.Spelled bare bodyTokens earlier.reverse) :
      StmtHole.Spelled (.body params earlier outer) bare
        (tokens ++ word :: opening :: (paramTokens ++ closing :: brace :: bodyTokens)) program

/-- The tokens spell the program up to the place of an expression, which an expression of the given
power can fill. -/
inductive ExprHole.Spelled : ExprHole → (power : Nat) → (guarded : Bool) → List Token → Program →
    Prop where
  | letValue {outer : StmtHole} {bare : Bool} {tokens : List Token} {word name assign : Token}
      {program : Program} (outerSpelled : StmtHole.Spelled outer bare tokens program)
      (wordKind : word.kind = .keyword .letWord) (nameKind : name.kind = .ident)
      (assignKind : assign.kind = .symbol .assign) :
      ExprHole.Spelled (.letValue name.literal outer) loosestPower false
        (tokens ++ [word, name, assign]) program
  | retValue {outer : StmtHole} {bare : Bool} {tokens : List Token} {word : Token}
      {program : Program} (outerSpelled : StmtHole.Spelled outer bare tokens program)
      (wordKind : word.kind = .keyword .returnWord) :
      ExprHole.Spelled (.retValue outer) loosestPower false (tokens ++ [word]) program
  | statement {outer : StmtHole} {bare : Bool} {tokens : List Token} {program : Program}
      (outerSpelled : StmtHole.Spelled outer bare tokens program) :
      ExprHole.Spelled (.statement outer) loosestPower bare tokens program
  | operand {outer : ExprHole} {power : Nat} {guarded : Bool} {tokens : List Token} {sign : Token}
      {op : UnaryOp} {program : Program}
      (outerSpelled : ExprHole.Spelled outer power guarded tokens program)
      (apart : Apart guarded [sign]) (signKind : sign.kind = .symbol op.symbol) :
      ExprHole.Spelled (.operand op outer) unaryPower false (tokens ++ [sign]) program
  | right {outer : ExprHole} {power : Nat} {guarded : Bool} {tokens lefts : List Token}
      {sign : Token} {left : Expr} {op : BinaryOp} {program : Program}
      (outerSpelled : ExprHole.Spelled outer power guarded tokens program)
      (fits : power ≤ op.power) (apart : Apart guarded lefts)
      (leftSpelled : Expr.Spelled op.power lefts left)
      (signKind : sign.kind = .symbol op.symbol) :
      ExprHole.Spelled (.right left op outer) (op.power + 1) false (tokens ++ (lefts ++ [sign]))
        program
  | group {outer : ExprHole} {power : Nat} {guarded : Bool} {tokens : List Token}
      {opening : Token} {program : Program}
      (outerSpelled : ExprHole.Spelled outer power guarded tokens program)
      (apart : Apart guarded [opening]) (openingKind : opening.kind = .symbol .leftParen) :
      ExprHole.Spelled (.group outer) loosestPower false (tokens ++ [opening]) program
  | condition {outer : ExprHole} {power : Nat} {guarded : Bool} {tokens : List Token}
      {word opening : Token} {program : Program}
      (outerSpelled : ExprHole.Spelled outer power guarded tokens program)
      (wordKind : word.kind = .keyword .ifWord)
      (openingKind : opening.kind = .symbol .leftParen) :
      ExprHole.Spelled (.condition outer) loosestPower false (tokens ++ [word, opening]) program
  | firstArgument {outer : ExprHole} {power : Nat} {guarded : Bool}
      {tokens calleeTokens : List Token} {opening : Token} {callee : Expr} {program : Program}
      (outerSpelled : ExprHole.Spelled outer power guarded tokens program)
      (apart : Apart guarded calleeTokens)
      (calleeSpelled : Expr.Spelled callPower calleeTokens callee)
      (openingKind : opening.kind = .symbol .leftParen) :
      ExprHole.Spelled (.argument callee [] outer) loosestPower false
        (tokens ++ (calleeTokens ++ [opening])) program
  | laterArgument {outer : ExprHole} {power : Nat} {guarded : Bool}
      {tokens calleeTokens argTokens : List Token} {opening comma : Token} {callee : Expr}
      {earlier : List Expr} {program : Program}
      (outerSpelled : ExprHole.Spelled outer power guarded tokens program)
      (apart : Apart guarded calleeTokens)
      (calleeSpelled : Expr.Spelled callPower calleeTokens callee)
      (openingKind : opening.kind = .symbol .leftParen)
      (earlierSpelled : Expr.ArgsSpelled argTokens earlier.reverse) (nonempty : earlier ≠ [])
      (commaKind : comma.kind = .symbol .comma) :
      ExprHole.Spelled (.argument callee earlier outer) loosestPower false
        (tokens ++ (calleeTokens ++ opening :: (argTokens ++ [comma]))) program

end

/-- The tokens are those that have been taken to come to the state, and spell what it holds. -/
inductive Reading.Spelled : Reading → List Token → Program → Prop where
  | ended {bare : Bool} {tokens rest : List Token} {finish : Token} {program : Program}
      (spelled : Program.Spelled bare tokens program) (finishKind : finish.kind = .eof) :
      Reading.Spelled .ended (tokens ++ finish :: rest) program
  | statement {hole : StmtHole} {tokens : List Token} {program : Program}
      (holeSpelled : hole.Spelled false tokens program) :
      Reading.Spelled (.statement hole) tokens program
  | operand {hole : ExprHole} {power : Nat} {tokens : List Token} {program : Program}
      (holeSpelled : hole.Spelled power false tokens program) :
      Reading.Spelled (.operand hole) tokens program
  | operator {hole : ExprHole} {power : Nat} {guarded : Bool} {tokens valueTokens : List Token}
      {value : Expr} {program : Program} (holeSpelled : hole.Spelled power guarded tokens program)
      (apart : Apart guarded valueTokens)
      (valueSpelled : Expr.Spelled callPower valueTokens value) :
      Reading.Spelled (.operator value hole) (tokens ++ valueTokens) program
  | firstArgument {hole : ExprHole} {power : Nat} {guarded : Bool}
      {tokens calleeTokens : List Token} {opening : Token} {callee : Expr} {program : Program}
      (holeSpelled : hole.Spelled power guarded tokens program)
      (apart : Apart guarded calleeTokens)
      (calleeSpelled : Expr.Spelled callPower calleeTokens callee)
      (openingKind : opening.kind = .symbol .leftParen) :
      Reading.Spelled (.firstArgument callee hole) (tokens ++ (calleeTokens ++ [opening])) program
  | otherwise {hole : ExprHole} {power : Nat} {guarded : Bool}
      {tokens testTokens branchTokens : List Token} {word opening closing : Token}
      {condition : Expr} {consequence : List Stmt} {program : Program}
      (holeSpelled : hole.Spelled power guarded tokens program)
      (wordKind : word.kind = .keyword .ifWord) (openingKind : opening.kind = .symbol .leftParen)
      (conditionSpelled : Expr.Spelled loosestPower testTokens condition)
      (closingKind : closing.kind = .symbol .rightParen)
      (branchSpelled : Program.BlockSpelled branchTokens consequence) :
      Reading.Spelled (.otherwise condition consequence hole)
        (tokens ++ word :: opening :: (testTokens ++ closing :: branchTokens)) program
  | letName {hole : StmtHole} {bare : Bool} {tokens : List Token} {word : Token}
      {program : Program} (holeSpelled : hole.Spelled bare tokens program)
      (wordKind : word.kind = .keyword .letWord) :
      Reading.Spelled (.letName hole) (tokens ++ [word]) program
  | firstParam {hole : ExprHole} {power : Nat} {guarded : Bool} {tokens : List Token}
      {word opening : Token} {program : Program}
      (holeSpelled : hole.Spelled power guarded tokens program)
      (wordKind : word.kind = .keyword .fnWord)
      (openingKind : opening.kind = .symbol .leftParen) :
      Reading.Spelled (.firstParam hole) (tokens ++ [word, opening]) program
  | laterParam {hole : ExprHole} {power : Nat} {guarded : Bool} {tokens paramTokens : List Token}
      {word opening comma : Token} {earlier : List String} {program : Program}
      (holeSpelled : hole.Spelled power guarded tokens program)
      (wordKind : word.kind = .keyword .fnWord) (openingKind : opening.kind = .symbol .leftParen)
      (earlierSpelled : ParamsSpelled paramTokens earlier.reverse) (nonempty : earlier ≠ [])
      (commaKind : comma.kind = .symbol .comma) :
      Reading.Spelled (.laterParam earlier hole)
        (tokens ++ word :: opening :: (paramTokens ++ [comma])) program
  | paramEnd {hole : ExprHole} {power : Nat} {guarded : Bool} {tokens paramTokens : List Token}
      {word opening : Token} {earlier : List String} {program : Program}
      (holeSpelled : hole.Spelled power guarded tokens program)
      (wordKind : word.kind = .keyword .fnWord) (openingKind : opening.kind = .symbol .leftParen)
      (earlierSpelled : ParamsSpelled paramTokens earlier.reverse) (nonempty : earlier ≠ []) :
      Reading.Spelled (.paramEnd earlier hole) (tokens ++ word :: opening :: paramTokens) program
  | expect {symbol : Symbol} {next : Reading} {tokens : List Token} {program : Program}
      (nextSpelled : ∀ token : Token, token.kind = .symbol symbol →
        Reading.Spelled next (tokens ++ [token]) program) :
      Reading.Spelled (.expect symbol next) tokens program

/-- Unless the step yields an error, the tokens spell what it leads to. -/
def Step.Sound (tokens : List Token) (program : Program) (step : Step) : Prop :=
  Outcome.errors step.1 = [] → step.2.Spelled tokens (program ++ Outcome.program step.1)

/-! ### Parts of the invariant -/

theorem Expr.Spelled.mono {low high : Nat} {tokens : List Token} {expr : Expr}
    (spelled : Expr.Spelled high tokens expr) (le : low ≤ high) :
    Expr.Spelled low tokens expr := by
  rcases Nat.exists_eq_add_of_le le with ⟨steps, rfl⟩
  clear le
  induction steps with
  | zero => exact spelled
  | succ steps ih => exact ih (.climb spelled)

theorem Program.Spelled.snoc_reverse {bare lastBare : Bool} {tokens lastTokens : List Token}
    {earlier : List Stmt} {last : Stmt} (spelled : Program.Spelled bare tokens earlier.reverse)
    (apart : Apart bare lastTokens) (lastSpelled : Stmt.Spelled lastBare lastTokens last) :
    Program.Spelled lastBare (tokens ++ lastTokens) (last :: earlier).reverse := by
  simpa using spelled.snoc apart lastSpelled

namespace Apart

variable {guarded : Bool} {token : Token} {tokens : List Token}

theorem unguarded (tokens : List Token) : Apart false tokens := by
  simp [Apart]

theorem append (apart : Apart guarded tokens) (nonempty : tokens ≠ []) (more : List Token) :
    Apart guarded (tokens ++ more) := by
  rcases tokens with _ | ⟨token, rest⟩
  · exact absurd rfl nonempty
  · exact apart

theorem cons (apart : Apart guarded [token]) (rest : List Token) : Apart guarded (token :: rest) :=
  apart

/-- A token of a kind that cannot go on with an expression stands apart from everything. -/
theorem of_kind {kind : Kind} (isKind : token.kind = kind)
    (other : kind ≠ .symbol .leftParen ∧ kind ≠ .symbol .minus) (rest : List Token) :
    Apart guarded (token :: rest) := by
  subst isKind
  intro _ head mem joins
  simp only [List.head?_cons, Option.mem_def, Option.some.injEq] at mem
  subst mem
  exact joins.elim other.1 other.2

end Apart

theorem ExprHole.Spelled.power_le {hole : ExprHole} {power : Nat} {guarded : Bool}
    {tokens : List Token} {program : Program} (spelled : hole.Spelled power guarded tokens program) :
    power ≤ unaryPower := by
  cases spelled with
  | @right outer power guarded tokens lefts sign left op => cases op <;> decide
  | _ => decide

namespace Step.Sound

variable {tokens : List Token} {program : Program}

theorem silent {next : Reading} (spelled : next.Spelled tokens program) :
    Step.Sound tokens program ([], next) := by
  intro _
  simpa using spelled

theorem skip (error : ParseError) : error.skip.Sound tokens program := by
  simp [Step.Sound, ParseError.skip]

theorem refuse (token : Token) (wanted : Kind) : (token.refuse wanted).Sound tokens program := by
  simp [Step.Sound, Token.refuse]

/-- Outcomes that come before a step belong to what has been given away. -/
theorem after {step : Step} {outcomes : List Outcome} (errors : Outcome.errors outcomes = [])
    (sound : step.Sound tokens (program ++ Outcome.program outcomes)) :
    (step.after outcomes).Sound tokens program := by
  intro clean
  simp only [Step.fst_after, Outcome.errors_append, errors, List.nil_append] at clean
  simpa using sound clean

theorem cast {step : Step} {others : List Token} (sound : step.Sound tokens program)
    (same : tokens = others) : step.Sound others program :=
  same ▸ sound

end Step.Sound

/-! ### Statements -/

/-- A spelled statement fills the place in front of it. -/
theorem StmtHole.Spelled.fill {hole : StmtHole} {bare stmtBare : Bool}
    {tokens stmtTokens : List Token} {program : Program} {stmt : Stmt}
    (spelled : hole.Spelled bare tokens program) (apart : Apart bare stmtTokens)
    (stmtSpelled : Stmt.Spelled stmtBare stmtTokens stmt) :
    Outcome.errors (hole.fill stmt).1 = [] ∧
      (hole.fill stmt).2.Spelled stmtBare (tokens ++ stmtTokens)
        (program ++ Outcome.program (hole.fill stmt).1) := by
  refine ⟨by cases hole <;> rfl, ?_⟩
  cases spelled with
  | program spelled =>
      exact .program (spelled.snoc apart stmtSpelled)
  | @block outer outerBare bare tokens bodyTokens opening earlier program outerSpelled openingKind
      earlierSpelled =>
      have later := earlierSpelled.snoc_reverse apart stmtSpelled
      simpa [StmtHole.fill] using StmtHole.Spelled.block outerSpelled openingKind later
  | @consequence outer power guarded bare tokens testTokens bodyTokens word opening closing brace
      condition earlier program outerSpelled wordKind openingKind conditionSpelled closingKind
      braceKind earlierSpelled =>
      have later := earlierSpelled.snoc_reverse apart stmtSpelled
      simpa [StmtHole.fill] using StmtHole.Spelled.consequence outerSpelled wordKind openingKind
        conditionSpelled closingKind braceKind later
  | @alternative outer power guarded bare tokens testTokens branchTokens bodyTokens word opening
      closing other brace condition consequence earlier program outerSpelled wordKind openingKind
      conditionSpelled closingKind branchSpelled otherKind braceKind earlierSpelled =>
      have later := earlierSpelled.snoc_reverse apart stmtSpelled
      simpa [StmtHole.fill] using StmtHole.Spelled.alternative outerSpelled wordKind openingKind
        conditionSpelled closingKind branchSpelled otherKind braceKind later
  | @body outer power guarded bare tokens paramTokens bodyTokens word opening closing brace params
      earlier program outerSpelled wordKind openingKind paramsSpelled closingKind braceKind
      earlierSpelled =>
      have later := earlierSpelled.snoc_reverse apart stmtSpelled
      simpa [StmtHole.fill] using StmtHole.Spelled.body outerSpelled wordKind openingKind
        paramsSpelled closingKind braceKind later

/-- A brace closes the innermost body. -/
theorem StmtHole.Spelled.close {hole : StmtHole} {bare : Bool} {tokens : List Token}
    {program : Program} {closing : Token} {step : Step} (spelled : hole.Spelled bare tokens program)
    (closingKind : closing.kind = .symbol .rightBrace) (closes : hole.close? = some step) :
    step.Sound (tokens ++ [closing]) program := by
  cases spelled with
  | program spelled => simp [StmtHole.close?] at closes
  | @block outer outerBare bare tokens bodyTokens opening earlier program outerSpelled openingKind
      earlierSpelled =>
      have whole := Program.BlockSpelled.mk openingKind earlierSpelled closingKind
      have filled := outerSpelled.fill (.of_kind openingKind (by decide) _) (.block whole)
      simp only [StmtHole.close?, Option.some.injEq] at closes
      subst closes
      intro _
      simpa using Reading.Spelled.statement filled.2
  | @consequence outer power guarded bare tokens testTokens bodyTokens word opening first brace
      condition earlier program outerSpelled wordKind openingKind conditionSpelled firstKind
      braceKind earlierSpelled =>
      have whole := Program.BlockSpelled.mk braceKind earlierSpelled closingKind
      simp only [StmtHole.close?, Option.some.injEq] at closes
      subst closes
      have next := Reading.Spelled.otherwise outerSpelled wordKind openingKind conditionSpelled
        firstKind whole
      exact .silent (by simpa using next)
  | @alternative outer power guarded bare tokens testTokens branchTokens bodyTokens word opening
      first other brace condition consequence earlier program outerSpelled wordKind openingKind
      conditionSpelled firstKind branchSpelled otherKind braceKind earlierSpelled =>
      have whole := Expr.Spelled.ifElse wordKind openingKind conditionSpelled firstKind
        branchSpelled otherKind (.mk braceKind earlierSpelled closingKind)
      simp only [StmtHole.close?, Option.some.injEq] at closes
      subst closes
      have next := Reading.Spelled.operator outerSpelled (.of_kind wordKind (by decide) _)
        (.climb whole)
      exact .silent (by simpa using next)
  | @body outer power guarded bare tokens paramTokens bodyTokens word opening first brace params
      earlier program outerSpelled wordKind openingKind paramsSpelled firstKind braceKind
      earlierSpelled =>
      have whole := Expr.Spelled.fn wordKind openingKind paramsSpelled firstKind
        (.mk braceKind earlierSpelled closingKind)
      simp only [StmtHole.close?, Option.some.injEq] at closes
      subst closes
      have next := Reading.Spelled.operator outerSpelled (.of_kind wordKind (by decide) _)
        (.climb whole)
      exact .silent (by simpa using next)

/-! ### Expressions -/

theorem ExprHole.Spelled.start {hole : ExprHole} {power : Nat} {guarded : Bool}
    {tokens : List Token} {program : Program} {token : Token}
    (spelled : hole.Spelled power guarded tokens program) (apart : Apart guarded [token]) :
    (ExprHole.start token hole).Sound (tokens ++ [token]) program := by
  unfold ExprHole.start
  split
  · rename_i kind
    exact .silent (.operator spelled apart (.climb (.ident kind)))
  · rename_i kind
    split
    · rename_i value reads
      exact .silent (.operator spelled apart
        (.climb (.int kind (integerSpelled_of_readInteger? reads))))
    · exact .skip _
  · rename_i kind
    exact .silent (.operator spelled apart (.climb (.str kind)))
  · rename_i kind
    exact .silent (.operator spelled apart (.climb (.yes kind)))
  · rename_i kind
    exact .silent (.operator spelled apart (.climb (.no kind)))
  · rename_i kind
    refine .silent (.expect fun opening openingKind => ?_)
    simpa using Reading.Spelled.operand (.condition spelled kind openingKind)
  · rename_i kind
    refine .silent (.expect fun opening openingKind => ?_)
    simpa using Reading.Spelled.firstParam spelled kind openingKind
  · rename_i kind
    exact .silent (.operand (.group spelled apart kind))
  · split
    · rename_i op found
      exact .silent (.operand (.operand spelled apart (UnaryOp.ofKind?_eq_some_iff.mp found)))
    · exact .skip _

theorem StmtHole.Spelled.start {hole : StmtHole} {bare : Bool} {tokens : List Token}
    {program : Program} {token : Token} (spelled : hole.Spelled bare tokens program)
    (apart : Apart bare [token]) : (hole.start token).Sound (tokens ++ [token]) program := by
  unfold StmtHole.start
  split
  · rename_i kind
    exact .silent (.letName spelled kind)
  · rename_i kind
    exact .silent (.operand (.retValue spelled kind))
  · rename_i kind
    exact .silent (.statement (.block spelled kind .nil))
  · rename_i kind
    cases closes : hole.close? with
    | none => exact ExprHole.Spelled.start (.statement spelled) apart
    | some step => exact spelled.close kind closes
  · rename_i kind
    cases hole with
    | program =>
        cases spelled with
        | program spelled => exact .silent (.ended spelled kind)
    | _ => exact .skip _
  · exact ExprHole.Spelled.start (.statement spelled) apart

/-- A spelled statement with the token behind it. -/
theorem StmtHole.Spelled.complete {hole : StmtHole} {bare : Bool}
    {tokens stmtTokens : List Token} {program : Program} {stmt : Stmt} {token : Token}
    (spelled : hole.Spelled bare tokens program) (apart : Apart bare stmtTokens)
    (stmtSpelled : ∀ {endBare : Bool} {endTokens : List Token}, EndSpelled endBare endTokens →
      Stmt.Spelled endBare (stmtTokens ++ endTokens) stmt)
    (nonempty : stmtTokens ≠ []) (ends : ¬ token.Joins) :
    (hole.complete token stmt).Sound (tokens ++ (stmtTokens ++ [token])) program := by
  by_cases kind : token.kind = .symbol .semicolon
  · have filled := spelled.fill (apart.append nonempty _) (stmtSpelled (.present kind))
    rw [StmtHole.complete_of_semicolon kind]
    intro _
    exact .statement filled.2
  · have filled := spelled.fill (apart.append nonempty _) (stmtSpelled .absent)
    rw [StmtHole.complete_of_ne kind]
    refine .after filled.1 ?_
    have tokenApart : Apart true [token] := by
      intro _ head mem
      simp only [List.head?_cons, Option.mem_def, Option.some.injEq] at mem
      exact mem ▸ ends
    have started := filled.2.start tokenApart
    exact started.cast (by simp)

/-- Completing the operations that bind tightly enough leaves an operand of the wanted power, and a
hole that it fits. -/
theorem ExprHole.Spelled.settle {hole : ExprHole} {power : Nat} {guarded : Bool}
    {tokens valueTokens : List Token} {program : Program} {value : Expr} {valuePower : Nat}
    (spelled : hole.Spelled power guarded tokens program) (fits : power ≤ valuePower)
    (apart : Apart guarded valueTokens) (valueSpelled : Expr.Spelled valuePower valueTokens value)
    {wanted : Nat} (loose : loosestPower ≤ wanted) (tight : wanted ≤ valuePower)
    (binary : wanted ≤ unaryPower) :
    ∃ outerPower outerGuarded outerTokens operandTokens,
      (hole.settle wanted value).2.Spelled outerPower outerGuarded outerTokens program ∧
        outerPower ≤ wanted ∧ Apart outerGuarded operandTokens ∧
        Expr.Spelled wanted operandTokens (hole.settle wanted value).1 ∧
        tokens ++ valueTokens = outerTokens ++ operandTokens := by
  fun_induction ExprHole.settle wanted value hole generalizing power guarded tokens valueTokens valuePower with
  | case1 value op outer ih =>
      cases spelled with
      | @operand outer outerPower guarded tokens sign op program outerSpelled outerApart signKind =>
          have signSpelled := UnaryOp.spelled_iff.mpr signKind
          have whole := Expr.Spelled.unary signSpelled (valueSpelled.mono fits)
          rcases ih outerSpelled outerSpelled.power_le (outerApart.cons _) whole binary with
            ⟨p, g, outerTokens, operandTokens, holeSpelled, le, stays, operandSpelled, same⟩
          exact ⟨p, g, outerTokens, operandTokens, holeSpelled, le, stays, operandSpelled,
            by simpa using same⟩
  | case2 value left op outer below ih =>
      cases spelled with
      | @right outer outerPower guarded tokens lefts sign left op program outerSpelled outerFits
          outerApart leftSpelled signKind =>
          have signSpelled := BinaryOp.spelled_iff.mpr ⟨signKind, rfl⟩
          have whole := Expr.Spelled.binary leftSpelled signSpelled (valueSpelled.mono fits)
          rcases ih outerSpelled outerFits (outerApart.append leftSpelled.ne_nil _) whole below with
            ⟨p, g, outerTokens, operandTokens, holeSpelled, le, stays, operandSpelled, same⟩
          exact ⟨p, g, outerTokens, operandTokens, holeSpelled, le, stays, operandSpelled,
            by simpa using same⟩
  | case3 value left op outer below =>
      have le : power ≤ wanted := by
        cases spelled with
        | right => omega
      exact ⟨power, guarded, tokens, valueTokens, spelled, le, apart, valueSpelled.mono tight, rfl⟩
  | case4 value hole notOperand notRight =>
      have le : power ≤ wanted := by
        cases spelled with
        | operand => exact absurd rfl (notOperand _ _)
        | right => exact absurd rfl (notRight _ _ _)
        | _ => exact loose
      exact ⟨power, guarded, tokens, valueTokens, spelled, le, apart, valueSpelled.mono tight, rfl⟩

/-- Where an argument must come, it makes up the arguments so far together with the tokens behind
the opening parenthesis. -/
theorem ExprHole.Spelled.argument {callee : Expr} {earlier : List Expr} {outer : ExprHole}
    {power : Nat} {guarded : Bool} {tokens : List Token} {program : Program}
    (spelled : (ExprHole.argument callee earlier outer).Spelled power guarded tokens program) :
    power = loosestPower ∧ ∃ outerPower outerGuarded outerTokens calleeTokens opening argTokens,
      outer.Spelled outerPower outerGuarded outerTokens program ∧
        Apart outerGuarded calleeTokens ∧ Expr.Spelled callPower calleeTokens callee ∧
        opening.kind = .symbol .leftParen ∧
        tokens = outerTokens ++ (calleeTokens ++ opening :: argTokens) ∧
        ∀ {valueTokens : List Token} {value : Expr},
          Expr.Spelled loosestPower valueTokens value →
            Expr.ArgsSpelled (argTokens ++ valueTokens) (value :: earlier).reverse := by
  cases spelled with
  | @firstArgument outer outerPower outerGuarded outerTokens calleeTokens opening callee program
      outerSpelled apart calleeSpelled openingKind =>
      exact ⟨rfl, outerPower, outerGuarded, outerTokens, calleeTokens, opening, [], outerSpelled,
        apart, calleeSpelled, openingKind, rfl, fun valueSpelled => .first valueSpelled⟩
  | @laterArgument outer outerPower outerGuarded outerTokens calleeTokens argTokens opening comma
      callee earlier program outerSpelled apart calleeSpelled openingKind earlierSpelled nonempty
      commaKind =>
      refine ⟨rfl, outerPower, outerGuarded, outerTokens, calleeTokens, opening,
        argTokens ++ [comma], outerSpelled, apart, calleeSpelled, openingKind, rfl,
        fun valueSpelled => ?_⟩
      have nonempty' : earlier.reverse ≠ [] := by simpa using nonempty
      simpa using Expr.ArgsSpelled.later earlierSpelled nonempty' commaKind valueSpelled

/-- A spelled expression with a token behind it that does not go on with it. -/
theorem ExprHole.Spelled.complete {hole : ExprHole} {power : Nat} {guarded : Bool}
    {tokens valueTokens : List Token} {program : Program} {value : Expr} {valuePower : Nat}
    {token : Token} (spelled : hole.Spelled power guarded tokens program)
    (fits : power ≤ valuePower) (apart : Apart guarded valueTokens)
    (valueSpelled : Expr.Spelled valuePower valueTokens value) (ends : ¬ token.Joins) :
    (hole.complete token value).Sound (tokens ++ (valueTokens ++ [token])) program := by
  fun_induction ExprHole.complete token value hole
    generalizing power guarded tokens valueTokens valuePower with
  | case1 value name outer =>
      cases spelled with
      | @letValue outer bare tokens word name assign program outerSpelled wordKind nameKind
          assignKind =>
          have completed := outerSpelled.complete
            (.of_kind wordKind (by decide) (name :: assign :: valueTokens))
            (fun endSpelled => .letBe wordKind nameKind assignKind (valueSpelled.mono fits)
              endSpelled) (by simp) ends
          exact completed.cast (by simp)
  | case2 value outer =>
      cases spelled with
      | @retValue outer bare tokens word program outerSpelled wordKind =>
          have completed := outerSpelled.complete (.of_kind wordKind (by decide) valueTokens)
            (fun endSpelled => .ret wordKind (valueSpelled.mono fits) endSpelled) (by simp) ends
          exact completed.cast (by simp)
  | case3 value outer =>
      cases spelled with
      | statement outerSpelled =>
          exact outerSpelled.complete apart
            (fun endSpelled => .expr (valueSpelled.mono fits) endSpelled) valueSpelled.ne_nil ends
  | case4 value op outer ih =>
      cases spelled with
      | @operand outer outerPower guarded tokens sign op program outerSpelled outerApart signKind =>
          have signSpelled := UnaryOp.spelled_iff.mpr signKind
          have whole := Expr.Spelled.unary signSpelled (valueSpelled.mono fits)
          exact (ih outerSpelled outerSpelled.power_le (outerApart.cons _) whole).cast (by simp)
  | case5 value left op outer ih =>
      cases spelled with
      | @right outer outerPower guarded tokens lefts sign left op program outerSpelled outerFits
          outerApart leftSpelled signKind =>
          have signSpelled := BinaryOp.spelled_iff.mpr ⟨signKind, rfl⟩
          have whole := Expr.Spelled.binary leftSpelled signSpelled (valueSpelled.mono fits)
          exact (ih outerSpelled outerFits (outerApart.append leftSpelled.ne_nil _) whole).cast
            (by simp)
  | case6 value outer closingKind =>
      cases spelled with
      | @group outer outerPower guarded tokens opening program outerSpelled outerApart
          openingKind =>
          have whole := Expr.Spelled.group openingKind (valueSpelled.mono fits) closingKind
          have next := Reading.Spelled.operator outerSpelled (outerApart.cons _) (.climb whole)
          exact .silent (by simpa using next)
  | case8 value outer closingKind =>
      cases spelled with
      | @condition outer outerPower guarded tokens word opening program outerSpelled wordKind
          openingKind =>
          refine .silent (.expect fun brace braceKind => .statement ?_)
          have opened : StmtHole.Spelled (.consequence value [] outer) false _ program :=
            .consequence outerSpelled wordKind openingKind (valueSpelled.mono fits) closingKind
              braceKind .nil
          simpa using opened
  | case10 value callee earlier outer commaKind =>
      rcases spelled.argument with ⟨rfl, p, g, outerTokens, calleeTokens, opening, argTokens,
        outerSpelled, outerApart, calleeSpelled, openingKind, rfl, argsSpelled⟩
      have next := Reading.Spelled.operand (.laterArgument outerSpelled outerApart calleeSpelled
        openingKind (argsSpelled (valueSpelled.mono fits)) (by simp) commaKind)
      exact .silent (by simpa using next)
  | case11 value callee earlier outer _ closingKind =>
      rcases spelled.argument with ⟨rfl, p, g, outerTokens, calleeTokens, opening, argTokens,
        outerSpelled, outerApart, calleeSpelled, openingKind, rfl, argsSpelled⟩
      have whole := Expr.Spelled.call calleeSpelled openingKind
        (argsSpelled (valueSpelled.mono fits)) closingKind
      have next := Reading.Spelled.operator outerSpelled
        (outerApart.append calleeSpelled.ne_nil _) whole
      exact .silent (by simpa using next)
  | case7 | case9 | case12 => exact .refuse _ _

/-- A spelled operand with the token behind it. -/
theorem ExprHole.Spelled.extend {hole : ExprHole} {power : Nat} {guarded : Bool}
    {tokens valueTokens : List Token} {program : Program} {value : Expr} {token : Token}
    (spelled : hole.Spelled power guarded tokens program) (apart : Apart guarded valueTokens)
    (valueSpelled : Expr.Spelled callPower valueTokens value) :
    (hole.extend token value).Sound (tokens ++ (valueTokens ++ [token])) program := by
  have fits : power ≤ callPower := Nat.le_trans spelled.power_le (by decide)
  unfold ExprHole.extend
  split
  · rename_i op found
    have signKind := BinaryOp.ofKind?_eq_some_iff.mp found
    have inside : loosestPower ≤ op.power ∧ op.power ≤ callPower ∧ op.power ≤ unaryPower := by
      cases op <;> decide
    rcases spelled.settle fits apart valueSpelled inside.1 inside.2.1 inside.2.2 with
      ⟨p, g, outerTokens, operandTokens, outerSpelled, outerFits, outerApart, operandSpelled, same⟩
    have next := Reading.Spelled.operand
      (.right outerSpelled outerFits outerApart operandSpelled signKind)
    rw [← List.append_assoc, ← same, List.append_assoc] at next
    exact .silent next
  · rename_i noOperator
    split
    · rename_i openingKind
      exact .silent (.firstArgument spelled apart valueSpelled openingKind)
    · rename_i noCall
      refine spelled.complete fits apart valueSpelled ?_
      rintro (paren | minus)
      · exact noCall paren
      · simp [minus, BinaryOp.ofKind?] at noOperator

/-! ### Whole readings -/

/-- Unless a token yields an error, the tokens go on to spell what is read. -/
theorem Reading.Spelled.step {state : Reading} {tokens : List Token} {program : Program}
    (spelled : state.Spelled tokens program) (token : Token) :
    (state.step token).Sound (tokens ++ [token]) program := by
  cases spelled with
  | ended spelled finishKind =>
      exact .silent (by simpa using Reading.Spelled.ended spelled finishKind)
  | statement holeSpelled => exact holeSpelled.start (.unguarded _)
  | operand holeSpelled => exact holeSpelled.start (.unguarded _)
  | operator holeSpelled apart valueSpelled =>
      exact (holeSpelled.extend apart valueSpelled).cast (by simp)
  | firstArgument holeSpelled apart calleeSpelled openingKind =>
      rw [Reading.step]
      split
      · rename_i closingKind
        have whole := Expr.Spelled.call calleeSpelled openingKind .none closingKind
        have next := Reading.Spelled.operator holeSpelled
          (apart.append calleeSpelled.ne_nil _) whole
        exact .silent (by simpa using next)
      · exact ExprHole.Spelled.start (.firstArgument holeSpelled apart calleeSpelled openingKind)
          (.unguarded _)
  | otherwise holeSpelled wordKind openingKind conditionSpelled closingKind branchSpelled =>
      rw [Reading.step]
      split
      · rename_i otherKind
        refine .silent (.expect fun brace braceKind => .statement ?_)
        have opened : StmtHole.Spelled (.alternative _ _ [] _) false _ program :=
          .alternative holeSpelled wordKind openingKind conditionSpelled closingKind branchSpelled
            otherKind braceKind .nil
        simpa using opened
      · have whole := Expr.Spelled.ifThen wordKind openingKind conditionSpelled closingKind
          branchSpelled
        have extended : (ExprHole.extend token _ _).Sound _ _ :=
          holeSpelled.extend (.of_kind wordKind (by decide) _) (.climb whole)
        exact extended.cast (by simp)
  | letName holeSpelled wordKind =>
      rw [Reading.step]
      split
      · rename_i nameKind
        refine .silent (.expect fun assign assignKind => ?_)
        simpa using Reading.Spelled.operand (.letValue holeSpelled wordKind nameKind assignKind)
      · exact .refuse _ _
  | firstParam holeSpelled wordKind openingKind =>
      rw [Reading.step]
      split
      · rename_i closingKind
        refine .silent (.expect fun brace braceKind => .statement ?_)
        have opened : StmtHole.Spelled (.body [] [] _) false _ program :=
          .body holeSpelled wordKind openingKind .none closingKind braceKind .nil
        simpa using opened
      · split
        · rename_i nameKind
          have one : ParamsSpelled [token] [token.literal].reverse := .first nameKind
          have next := Reading.Spelled.paramEnd holeSpelled wordKind openingKind one (by simp)
          exact .silent (by simpa using next)
        · exact .refuse _ _
  | @laterParam hole power guarded tokens paramTokens word opening comma earlier program
      holeSpelled wordKind openingKind earlierSpelled nonempty commaKind =>
      rw [Reading.step]
      split
      · rename_i nameKind
        have more : ParamsSpelled (paramTokens ++ [comma, token])
            (token.literal :: earlier).reverse := by
          simpa using ParamsSpelled.later earlierSpelled (by simpa using nonempty) commaKind nameKind
        have next := Reading.Spelled.paramEnd holeSpelled wordKind openingKind more (by simp)
        exact .silent (by simpa using next)
      · exact .refuse _ _
  | paramEnd holeSpelled wordKind openingKind earlierSpelled nonempty =>
      rw [Reading.step]
      split
      · rename_i commaKind
        have next := Reading.Spelled.laterParam holeSpelled wordKind openingKind earlierSpelled
          nonempty commaKind
        exact .silent (by simpa using next)
      · split
        · rename_i closingKind
          refine .silent (.expect fun brace braceKind => .statement ?_)
          have opened : StmtHole.Spelled (.body _ [] _) false _ program :=
            .body holeSpelled wordKind openingKind earlierSpelled closingKind braceKind .nil
          simpa using opened
        · exact .refuse _ _
  | expect nextSpelled =>
      rw [Reading.step]
      split
      · rename_i kind
        exact .silent (nextSpelled token kind)
      · exact .refuse _ _

theorem Reading.Spelled.feed {state : Reading} {tokens : List Token} {program : Program}
    (spelled : state.Spelled tokens program) (more : List Token) :
    (state.feed more).Sound (tokens ++ more) program := by
  induction more generalizing state tokens program with
  | nil => exact .silent (by simpa using spelled)
  | cons token rest ih =>
      intro clean
      rw [Reading.feed_cons] at clean ⊢
      simp only [Step.fst_after, Outcome.errors_append, List.append_eq_nil_iff] at clean
      have fed := ih (spelled.step token clean.1) clean.2
      simpa using fed

theorem Reading.Spelled.start : Reading.Spelled .start [] [] :=
  .statement (.program .nil)

/-! ### The end of the source -/

theorem StmtHole.start_end {token : Token} (kind : token.kind = .eof) {hole : StmtHole}
    (clean : Outcome.errors (hole.start token).1 = []) : (hole.start token).2 = .ended := by
  cases hole with
  | program => simp [StmtHole.start, kind, StmtHole.finish]
  | _ => simp [StmtHole.start, kind, StmtHole.finish, ParseError.skip] at clean

theorem ExprHole.errors_start_end {token : Token} (kind : token.kind = .eof) (hole : ExprHole) :
    Outcome.errors (ExprHole.start token hole).1 ≠ [] := by
  simp [ExprHole.start, kind, UnaryOp.ofKind?, ParseError.skip]

theorem Token.errors_refuse (token : Token) (wanted : Kind) :
    Outcome.errors (token.refuse wanted).1 ≠ [] := by
  simp [Token.refuse]

theorem ExprHole.complete_end {token : Token} (kind : token.kind = .eof) {hole : ExprHole}
    {value : Expr} (clean : Outcome.errors (hole.complete token value).1 = []) :
    (hole.complete token value).2 = .ended := by
  have finished : ∀ (stmt : Stmt) (outer : StmtHole),
      Outcome.errors (outer.complete token stmt).1 = [] →
        (outer.complete token stmt).2 = .ended := by
    intro stmt outer clean
    rw [StmtHole.complete_of_ne (by simp [kind])] at clean ⊢
    simp only [Step.fst_after, Outcome.errors_append, List.append_eq_nil_iff] at clean
    exact StmtHole.start_end kind clean.2
  fun_induction ExprHole.complete token value hole with
  | case1 | case2 | case3 => exact finished _ _ clean
  | case4 _ _ _ ih | case5 _ _ _ _ ih => exact ih clean
  | case6 _ _ other | case8 _ _ other | case11 _ _ _ _ _ other | case10 _ _ _ _ other =>
      simp [kind] at other
  | case7 | case9 | case12 => exact absurd clean (Token.errors_refuse _ _)

/-- An end of the source that is no error ends the program. -/
theorem Reading.step_end {token : Token} (kind : token.kind = .eof) {state : Reading}
    (clean : Outcome.errors (state.step token).1 = []) : (state.step token).2 = .ended := by
  have extended : ∀ (value : Expr) (hole : ExprHole),
      Outcome.errors (hole.extend token value).1 = [] → (hole.extend token value).2 = .ended := by
    intro value hole
    simpa [ExprHole.extend, kind, BinaryOp.ofKind?] using ExprHole.complete_end kind
  cases state with
  | ended => rfl
  | statement hole => exact StmtHole.start_end kind clean
  | operand hole => exact absurd clean (ExprHole.errors_start_end kind _)
  | operator value hole => exact extended value hole clean
  | firstArgument callee hole =>
      simp only [Reading.step, kind, reduceCtorEq, if_false] at clean
      exact absurd clean (ExprHole.errors_start_end kind _)
  | otherwise condition consequence hole =>
      simp only [Reading.step, kind, reduceCtorEq, if_false] at clean ⊢
      exact extended _ hole clean
  | _ =>
      simp only [Reading.step, kind, reduceCtorEq, if_false] at clean
      exact absurd clean (Token.errors_refuse _ _)

/-- What is read without an error, up to an end of the source, is spelled by the tokens before
that. -/
theorem Program.spelled_of_feed {tokens : List Token} (noEnd : ∀ token ∈ tokens, token.kind ≠ .eof)
    {finish : Token} (finishKind : finish.kind = .eof)
    (clean : Outcome.errors (Reading.start.feed (tokens ++ [finish])).1 = []) :
    (Reading.start.feed (tokens ++ [finish])).2 = .ended ∧
      ∃ bare, Program.Spelled bare tokens
        (Outcome.program (Reading.start.feed (tokens ++ [finish])).1) := by
  have ended : (Reading.start.feed (tokens ++ [finish])).2 = .ended := by
    simp only [Reading.feed_append, Reading.feed_singleton, Step.fst_after, Outcome.errors_append,
      List.append_eq_nil_iff, Step.snd_after] at clean ⊢
    exact Reading.step_end finishKind clean.2
  refine ⟨ended, ?_⟩
  have spelled := Reading.Spelled.start.feed (tokens ++ [finish]) clean
  rw [ended, List.nil_append, List.nil_append] at spelled
  generalize Outcome.program (Reading.start.feed (tokens ++ [finish])).1 = program at spelled
  generalize whole : tokens ++ [finish] = taken at spelled
  cases spelled with
  | @ended bare before rest last program beforeSpelled lastKind =>
      have same : before = tokens := by
        rcases List.append_eq_append_iff.mp whole with ⟨extra, rfl, tail⟩ | ⟨extra, rfl, tail⟩
        · rcases extra with _ | ⟨token, extra⟩
          · simp
          · simp at tail
        · rcases extra with _ | ⟨token, extra⟩
          · simp
          · simp only [List.cons_append, List.cons.injEq] at tail
            exact absurd (tail.1 ▸ lastKind) (noEnd token (by simp))
      exact ⟨bare, same ▸ beforeSpelled⟩

end Monkey
