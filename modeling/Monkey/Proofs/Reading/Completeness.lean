import Monkey.Proofs.Reading.Feed
import Monkey.Proofs.Reading.Grammar

/-!
# Completeness of reading

Whatever the grammar derives is read as the tree of the derivation. The proof follows the
derivation, and says of each part of it in which state reading is behind the part.

Reading never looks ahead, so behind an operand it cannot know whether the operand is a whole
expression, and keeps the operations that end there open. `Reading.Stands` says that this makes
no difference: for every token that may follow, the state behaves as if the expression were an
operand that has been read in one piece. Likewise behind a bare statement: `Step.Awaits` says that
the state behaves as if the statement had been put in its place.
-/

namespace Monkey

/-! ### Where expressions start -/

theorem StmtHole.start_of_exprStarts {token : Token} (starts : token.kind ∈ exprStarts)
    (hole : StmtHole) : hole.start token = ExprHole.start token (.statement hole) := by
  simp only [exprStarts, List.mem_cons, List.not_mem_nil, or_false] at starts
  rcases starts with kind | kind | kind | kind | kind | kind | kind | kind | kind | kind <;>
    simp [StmtHole.start, kind]

/-- A whole expression is read alike where a statement may start and where it must. -/
theorem Expr.Spelled.feed_statement {power : Nat} {tokens : List Token} {expr : Expr}
    (spelled : Expr.Spelled power tokens expr) (hole : StmtHole) :
    (Reading.statement hole).feed tokens = (Reading.operand (.statement hole)).feed tokens := by
  rcases spelled.head with ⟨token, rest, rfl, starts⟩
  simp only [Reading.feed_cons, Reading.step, StmtHole.start_of_exprStarts starts]

/-- A whole expression is read alike where an argument may start and where it must. -/
theorem Expr.Spelled.feed_firstArgument {power : Nat} {tokens : List Token} {expr : Expr}
    (spelled : Expr.Spelled power tokens expr) (callee : Expr) (hole : ExprHole) :
    (Reading.firstArgument callee hole).feed tokens =
      (Reading.operand (.argument callee [] hole)).feed tokens := by
  rcases spelled.head with ⟨token, rest, rfl, starts⟩
  have continues : token.kind ≠ .symbol .rightParen := by
    rintro kind
    simp [kind, exprStarts] at starts
  simp only [Reading.feed_cons, Reading.step, if_neg continues]

/-! ### Operands that stand for expressions -/

/-- The tokens behind which an expression of the given power is not continued. -/
structure Token.Follows (power : Nat) (token : Token) : Prop where
  otherwise : token.kind ≠ .keyword .elseWord
  operator : ∀ op, BinaryOp.ofKind? token.kind = some op → op.power ≤ power
  call : token.kind = .symbol .leftParen → callPower ≤ power

/-- The hole is left open by every operation that an expression of the given power can be part
of. -/
def ExprHole.Admits (power : Nat) (hole : ExprHole) : Prop :=
  ∀ op : BinaryOp, power ≤ op.power → ∀ value, hole.settle op.power value = (value, hole)

/-- For every token that may follow, the state behaves as if `value` were an operand that has just
been read. -/
def Reading.Stands (power : Nat) (value : Expr) (hole : ExprHole) (state : Reading) : Prop :=
  ∀ token : Token, token.Follows power → state.step token = hole.extend token value

theorem BinaryOp.power_lt_unaryPower (op : BinaryOp) : op.power < unaryPower := by
  cases op <;> decide

namespace Token.Follows

theorem mono {low high : Nat} {token : Token} (follows : token.Follows low) (le : low ≤ high) :
    token.Follows high where
  otherwise := follows.otherwise
  operator op found := Nat.le_trans (follows.operator op found) le
  call kind := Nat.le_trans (follows.call kind) le

theorem of_binary {op : BinaryOp} {token : Token} (kind : token.kind = .symbol op.symbol)
    {power : Nat} (le : op.power ≤ power) : token.Follows power where
  otherwise := by simp [kind]
  operator other found := by
    rw [BinaryOp.ofKind?_eq_some_iff.mpr kind] at found
    exact Option.some.inj found ▸ le
  call paren := by
    rw [kind] at paren
    cases op <;> simp [BinaryOp.symbol] at paren

/-- A token that neither extends an operand nor starts a second branch follows every expression. -/
theorem of_break {token : Token} (otherwise : token.kind ≠ .keyword .elseWord)
    (operator : BinaryOp.ofKind? token.kind = none)
    (paren : token.kind ≠ .symbol .leftParen) (power : Nat) : token.Follows power where
  otherwise := otherwise
  operator op found := by simp [operator] at found
  call kind := absurd kind paren

theorem of_kind {token : Token} {kind : Kind} (isKind : token.kind = kind)
    (breaks : kind ≠ .keyword .elseWord ∧ BinaryOp.ofKind? kind = none ∧
      kind ≠ .symbol .leftParen) (power : Nat) : token.Follows power := by
  subst isKind
  exact of_break breaks.1 breaks.2.1 breaks.2.2 power

end Token.Follows

namespace ExprHole.Admits

variable {hole : ExprHole}

theorem mono {low high : Nat} (admits : hole.Admits low) (le : low ≤ high) : hole.Admits high :=
  fun op fits => admits op (Nat.le_trans le fits)

theorem of_unaryPower_le {power : Nat} (le : unaryPower ≤ power) : hole.Admits power := by
  intro op fits
  have below := op.power_lt_unaryPower
  omega

theorem right (left : Expr) (op : BinaryOp) (outer : ExprHole) :
    (ExprHole.right left op outer).Admits (op.power + 1) := by
  intro other fits value
  rw [ExprHole.settle, if_neg (by omega)]

end ExprHole.Admits

namespace Reading.Stands

variable {power : Nat} {value : Expr} {hole : ExprHole} {state : Reading}

theorem operator : Reading.Stands power value hole (.operator value hole) :=
  fun _ _ => rfl

theorem mono {low high : Nat} (stands : state.Stands high value hole) (le : low ≤ high) :
    state.Stands low value hole :=
  fun token follows => stands token (follows.mono le)

/-- A token that does not extend an operand completes the expression. -/
theorem complete (stands : state.Stands power value hole) {token : Token} {kind : Kind}
    (isKind : token.kind = kind) (breaks : kind ≠ .keyword .elseWord ∧
      BinaryOp.ofKind? kind = none ∧ kind ≠ .symbol .leftParen) :
    state.step token = hole.complete token value := by
  rw [stands token (.of_kind isKind breaks power)]
  simp [ExprHole.extend, isKind, breaks]

/-- Where a binary operation is as tight as what may follow, its right operand stands for the
whole. -/
theorem binary {left right : Expr} {op : BinaryOp}
    (stands : state.Stands (op.power + 1) right (.right left op hole)) :
    state.Stands op.power (.binary left op right) hole := by
  intro token follows
  rw [stands token (follows.mono (by omega))]
  unfold ExprHole.extend
  split
  · rename_i other found
    rw [ExprHole.settle, if_pos (follows.operator other found)]
  · have continues : token.kind ≠ .symbol .leftParen := by
      intro paren
      exact absurd (Nat.lt_of_le_of_lt (follows.call paren) op.power_lt_unaryPower) (by decide)
    rw [if_neg continues, if_neg continues, ExprHole.complete]

theorem unary {operand : Expr} {op : UnaryOp}
    (stands : state.Stands unaryPower operand (.operand op hole)) :
    state.Stands unaryPower (.unary op operand) hole := by
  intro token follows
  rw [stands token follows]
  unfold ExprHole.extend
  split
  · rw [ExprHole.settle]
  · have continues : token.kind ≠ .symbol .leftParen := by
      intro paren
      exact absurd (follows.call paren) (by decide)
    rw [if_neg continues, if_neg continues, ExprHole.complete]

/-- A choice with one branch stands, since no second branch follows. -/
theorem otherwise {condition : Expr} {consequence : List Stmt} :
    Reading.Stands power (.ifThen condition consequence) hole
      (.otherwise condition consequence hole) := by
  intro token follows
  rw [Reading.step, if_neg follows.otherwise]

end Reading.Stands

/-! ### Statements in their places -/

/-- The tokens behind which a bare statement is complete. -/
structure Token.Breaks (token : Token) : Prop where
  otherwise : token.kind ≠ .keyword .elseWord
  operator : BinaryOp.ofKind? token.kind = none
  call : token.kind ≠ .symbol .leftParen
  semicolon : token.kind ≠ .symbol .semicolon

/-- Puts statements in their places, one behind the other. -/
def StmtHole.fillAll : List Stmt → StmtHole → List Outcome × StmtHole
  | [], hole => ([], hole)
  | stmt :: rest, hole =>
    ((hole.fill stmt).1 ++ (fillAll rest (hole.fill stmt).2).1, (fillAll rest (hole.fill stmt).2).2)

/-- For every token that may follow, the step leads to a state that behaves as if a statement may
start in the given hole. -/
def Step.Awaits (bare : Bool) (place : List Outcome × StmtHole) (step : Step) : Prop :=
  ∀ token : Token, (bare = true → token.Breaks) →
    (step.2.step token).after step.1 = (place.2.start token).after place.1

namespace StmtHole

theorem fillAll_append (first second : List Stmt) (hole : StmtHole) :
    hole.fillAll (first ++ second) =
      ((hole.fillAll first).1 ++ ((hole.fillAll first).2.fillAll second).1,
        ((hole.fillAll first).2.fillAll second).2) := by
  induction first generalizing hole with
  | nil => rfl
  | cons stmt rest ih => simp [fillAll, ih]

theorem fillAll_program (stmts : List Stmt) :
    StmtHole.program.fillAll stmts = (stmts.map .parsed, .program) := by
  induction stmts with
  | nil => rfl
  | cons stmt rest ih => simp [fillAll, fill, ih]

/-- In a body, statements are put in front of each other. -/
theorem fillAll_of_fill {body : List Stmt → StmtHole}
    (fills : ∀ stmt earlier, (body earlier).fill stmt = ([], body (stmt :: earlier)))
    (stmts earlier : List Stmt) :
    (body earlier).fillAll stmts = ([], body (stmts.reverse ++ earlier)) := by
  induction stmts generalizing earlier with
  | nil => rfl
  | cons stmt rest ih => simp [fillAll, fills, ih]

end StmtHole

namespace Step.Awaits

variable {bare : Bool} {place : List Outcome × StmtHole}

theorem statement (place : List Outcome × StmtHole) :
    Step.Awaits bare place (place.1, .statement place.2) :=
  fun _ _ => rfl

theorem after {step : Step} (awaits : step.Awaits bare place) (outcomes : List Outcome) :
    (step.after outcomes).Awaits bare (outcomes ++ place.1, place.2) := by
  intro token breaks
  simpa using congrArg (Step.after outcomes) (awaits token breaks)

/-- Tokens behind a place that awaits them are read as statements in that place. -/
theorem feed_append {state : Reading} {tokens : List Token}
    (awaits : (state.feed tokens).Awaits bare place) {token : Token}
    (breaks : bare = true → token.Breaks) (rest : List Token) :
    state.feed (tokens ++ token :: rest) =
      ((Reading.statement place.2).feed (token :: rest)).after place.1 := by
  have taken := awaits token breaks
  have outcomes := congrArg Prod.fst taken
  have next := congrArg Prod.snd taken
  simp only [Step.fst_after, Step.snd_after] at outcomes next
  rw [Reading.feed_append, Reading.feed_cons, Reading.feed_cons, Step.after_after,
    Step.after_after, outcomes, next, Reading.step]

/-- A statement whose last expression stands behind its tokens awaits the next one. -/
theorem of_stands {power : Nat} {value : Expr} {hole : ExprHole} {state : Reading}
    (stands : state.Stands power value hole) {outer : StmtHole} {stmt : Stmt}
    (completes : ∀ token, hole.complete token value = outer.complete token stmt)
    {endTokens : List Token} (endSpelled : EndSpelled bare endTokens) :
    (state.feed endTokens).Awaits bare (outer.fill stmt) := by
  cases endSpelled with
  | absent =>
      intro token breaks
      have breaks := breaks rfl
      rw [Reading.feed_nil, Step.after_nil,
        stands.complete rfl ⟨breaks.otherwise, breaks.operator, breaks.call⟩, completes,
        StmtHole.complete_of_ne breaks.semicolon]
  | present kind =>
      rw [Reading.feed_singleton, stands.complete kind (by decide), completes,
        StmtHole.complete_of_semicolon kind]
      exact .statement _

end Step.Awaits

/-- The kinds of token that start a statement. -/
def stmtStarts : List Kind :=
  [.keyword .letWord, .keyword .returnWord, .symbol .leftBrace] ++ exprStarts

theorem Stmt.Spelled.head {bare : Bool} {tokens : List Token} {stmt : Stmt}
    (spelled : Stmt.Spelled bare tokens stmt) :
    ∃ token rest, tokens = token :: rest ∧ token.kind ∈ stmtStarts := by
  cases spelled with
  | letBe wordKind => exact ⟨_, _, rfl, wordKind ▸ by decide⟩
  | ret wordKind => exact ⟨_, _, rfl, wordKind ▸ by decide⟩
  | expr valueSpelled =>
      rcases valueSpelled.head with ⟨token, rest, rfl, starts⟩
      exact ⟨token, _, rfl, List.mem_append_right _ starts⟩
  | block bodySpelled =>
      cases bodySpelled with
      | mk openingKind => exact ⟨_, _, rfl, openingKind ▸ by decide⟩

theorem Token.breaks_of_stmtStarts {token : Token} (starts : token.kind ∈ stmtStarts)
    (apart : ¬ token.Joins) : token.Breaks := by
  have all : ∀ kind ∈ stmtStarts, ¬ (kind = .symbol .leftParen ∨ kind = .symbol .minus) →
      kind ≠ .keyword .elseWord ∧ BinaryOp.ofKind? kind = none ∧
        kind ≠ .symbol .leftParen ∧ kind ≠ .symbol .semicolon := by decide
  rcases all token.kind starts apart with ⟨otherwise, operator, call, semicolon⟩
  exact ⟨otherwise, operator, call, semicolon⟩

/-! ### Running along a derivation -/

theorem ParamsSpelled.eq_nil {tokens : List Token} {params : List String}
    (spelled : ParamsSpelled tokens params) (empty : params = []) : tokens = [] := by
  cases spelled with
  | none => rfl
  | first => simp at empty
  | later => simp at empty

theorem ParamsSpelled.feed {tokens : List Token} {params : List String}
    (spelled : ParamsSpelled tokens params) (nonempty : params ≠ []) (hole : ExprHole) :
    (Reading.firstParam hole).feed tokens = ([], .paramEnd params.reverse hole) := by
  induction spelled with
  | none => exact absurd rfl nonempty
  | first nameKind => simp [Reading.step, nameKind]
  | later earlier earlierNonempty commaKind nameKind ih =>
      rw [Reading.feed_append_of_eq (ih earlierNonempty)]
      simp [Reading.feed_cons, Reading.step, commaKind, nameKind]

theorem ParamsSpelled.feed_closing {tokens : List Token} {params : List String}
    (spelled : ParamsSpelled tokens params) {closing : Token}
    (closingKind : closing.kind = .symbol .rightParen) (rest : List Token) (hole : ExprHole) :
    (Reading.firstParam hole).feed (tokens ++ closing :: rest) =
      (Reading.expect .leftBrace (.statement (.body params [] hole))).feed rest := by
  by_cases empty : params = []
  · rw [spelled.eq_nil empty, empty]
    exact Reading.feed_cons_of_eq (by simp [Reading.step, closingKind]) rest
  · rw [Reading.feed_append_of_eq (spelled.feed empty hole)]
    exact Reading.feed_cons_of_eq (by simp [Reading.step, closingKind]) rest

theorem Reading.step_unary {sign : Token} {op : UnaryOp}
    (signKind : sign.kind = .symbol op.symbol) (hole : ExprHole) :
    (Reading.operand hole).step sign = ([], .operand (.operand op hole)) := by
  cases op <;> simp [Reading.step, ExprHole.start, signKind, UnaryOp.symbol, UnaryOp.ofKind?]

theorem Reading.Stands.step_binary {power : Nat} {left : Expr} {op : BinaryOp} {hole : ExprHole}
    {state : Reading} (stands : state.Stands power left hole) {sign : Token}
    (signKind : sign.kind = .symbol op.symbol) (tight : op.power ≤ power)
    (admits : hole.Admits op.power) :
    state.step sign = ([], .operand (.right left op hole)) := by
  rw [stands sign (.of_binary signKind tight), ExprHole.extend,
    BinaryOp.ofKind?_eq_some_iff.mpr signKind]
  simp [admits op (Nat.le_refl _)]

theorem Reading.Stands.step_call {callee : Expr} {hole : ExprHole} {state : Reading}
    (stands : state.Stands callPower callee hole) {opening : Token}
    (openingKind : opening.kind = .symbol .leftParen) :
    state.step opening = ([], .firstArgument callee hole) := by
  have follows : opening.Follows callPower :=
    ⟨by simp [openingKind], by simp [openingKind, BinaryOp.ofKind?], fun _ => Nat.le_refl _⟩
  rw [stands opening follows]
  simp [ExprHole.extend, openingKind, BinaryOp.ofKind?]

/-- Behind the condition of a choice, its first branch must come. -/
theorem Reading.Stands.feed_branch {tokens : List Token} {condition : Expr} {hole : ExprHole}
    {state : Reading} (fed : (Reading.operand (.condition hole)).feed tokens = ([], state))
    (stands : state.Stands loosestPower condition (.condition hole)) {word opening closing : Token}
    (wordKind : word.kind = .keyword .ifWord) (openingKind : opening.kind = .symbol .leftParen)
    (closingKind : closing.kind = .symbol .rightParen) (rest : List Token) :
    (Reading.operand hole).feed (word :: opening :: (tokens ++ closing :: rest)) =
      (Reading.expect .leftBrace (.statement (.consequence condition [] hole))).feed rest := by
  have started : (Reading.operand hole).step word =
      ([], .expect .leftParen (.operand (.condition hole))) := by
    simp [Reading.step, ExprHole.start, wordKind]
  have opened : (Reading.expect .leftParen (.operand (.condition hole))).step opening =
      ([], .operand (.condition hole)) := by
    simp [Reading.step, openingKind]
  have closed : state.step closing =
      ([], .expect .leftBrace (.statement (.consequence condition [] hole))) := by
    rw [stands.complete closingKind (by decide)]
    simp [ExprHole.complete, closingKind]
  rw [Reading.feed_cons_of_eq started, Reading.feed_cons_of_eq opened,
    Reading.feed_append_of_eq fed, Reading.feed_cons_of_eq closed]

theorem Reading.step_expect {token : Token} {symbol : Symbol} (kind : token.kind = .symbol symbol)
    (next : Reading) : (Reading.expect symbol next).step token = ([], next) := by
  simp [Reading.step, kind]

theorem Expr.ArgsSpelled.eq_nil {tokens : List Token} {args : List Expr}
    (spelled : Expr.ArgsSpelled tokens args) (empty : args = []) : tokens = [] := by
  cases spelled with
  | none => rfl
  | first => simp at empty
  | later => simp at empty

theorem Token.breaks_of_rightBrace {token : Token} (kind : token.kind = .symbol .rightBrace) :
    token.Breaks where
  otherwise := by simp [kind]
  operator := by rw [kind]; rfl
  call := by simp [kind]
  semicolon := by simp [kind]

mutual

theorem Expr.Spelled.feed : ∀ {power : Nat} {tokens : List Token} {expr : Expr},
    Expr.Spelled power tokens expr → ∀ {hole : ExprHole}, hole.Admits power →
      ∃ state, (Reading.operand hole).feed tokens = ([], state) ∧ state.Stands power expr hole
  | power, _, _, .climb tighter, hole, admits => by
      rcases tighter.feed (admits.mono (Nat.le_succ power)) with ⟨state, fed, stands⟩
      exact ⟨state, fed, stands.mono (Nat.le_succ power)⟩
  | _, _, _, @Expr.Spelled.binary power op lefts rights sign left right leftSpelled signSpelled
      rightSpelled, hole, admits => by
      rcases BinaryOp.spelled_iff.mp signSpelled with ⟨signKind, samePower⟩
      have rightAdmits : (ExprHole.right left op hole).Admits (power + 1) :=
        samePower ▸ .right left op hole
      rcases leftSpelled.feed admits with ⟨middle, leftFed, leftStands⟩
      rcases rightSpelled.feed rightAdmits with ⟨state, rightFed, rightStands⟩
      subst samePower
      have taken := leftStands.step_binary signKind (Nat.le_refl _) admits
      refine ⟨state, ?_, rightStands.binary⟩
      rw [Reading.feed_append_of_eq leftFed, Reading.feed_cons_of_eq taken, rightFed]
  | _, _, _, @Expr.Spelled.unary op tokens sign operand signSpelled operandSpelled, hole, _ => by
      have signKind := UnaryOp.spelled_iff.mp signSpelled
      have admits : (ExprHole.operand op hole).Admits unaryPower :=
        .of_unaryPower_le (Nat.le_refl _)
      rcases operandSpelled.feed admits with ⟨state, fed, stands⟩
      refine ⟨state, ?_, stands.unary⟩
      rw [Reading.feed_cons_of_eq (Reading.step_unary signKind hole), fed]
  | _, _, _, @Expr.Spelled.call tokens argTokens opening closing callee args calleeSpelled
      openingKind argsSpelled closingKind, hole, _ => by
      have admits : hole.Admits callPower := .of_unaryPower_le (by decide)
      rcases calleeSpelled.feed admits with ⟨middle, calleeFed, calleeStands⟩
      refine ⟨.operator (.call callee args) hole, ?_, .operator⟩
      rw [Reading.feed_append_of_eq calleeFed,
        Reading.feed_cons_of_eq (calleeStands.step_call openingKind)]
      by_cases empty : args = []
      · rw [argsSpelled.eq_nil empty, empty]
        simp [Reading.step, closingKind]
      · rcases argsSpelled.feed empty callee hole with ⟨state, earlier, last, rfl, fed, stands⟩
        rw [Reading.feed_append_of_eq fed, Reading.feed_singleton,
          stands.complete closingKind (by decide)]
        simp [ExprHole.complete, closingKind]
  | _, _, _, .ident nameKind, hole, _ =>
      ⟨_, by simp [Reading.step, ExprHole.start, nameKind], .operator⟩
  | _, _, _, .int literalKind valueSpelled, hole, _ =>
      ⟨_, by simp [Reading.step, ExprHole.start, literalKind,
        readInteger?_of_integerSpelled valueSpelled], .operator⟩
  | _, _, _, .str literalKind, hole, _ =>
      ⟨_, by simp [Reading.step, ExprHole.start, literalKind], .operator⟩
  | _, _, _, .yes wordKind, hole, _ =>
      ⟨_, by simp [Reading.step, ExprHole.start, wordKind], .operator⟩
  | _, _, _, .no wordKind, hole, _ =>
      ⟨_, by simp [Reading.step, ExprHole.start, wordKind], .operator⟩
  | _, _, _, @Expr.Spelled.group tokens opening closing expr openingKind exprSpelled closingKind,
      hole, _ => by
      have opened : (Reading.operand hole).step opening = ([], .operand (.group hole)) := by
        simp [Reading.step, ExprHole.start, openingKind]
      have admits : (ExprHole.group hole).Admits loosestPower := fun _ _ _ => rfl
      rcases exprSpelled.feed admits with ⟨state, fed, stands⟩
      refine ⟨.operator expr hole, ?_, .operator⟩
      rw [Reading.feed_cons_of_eq opened, Reading.feed_append_of_eq fed, Reading.feed_singleton,
        stands.complete closingKind (by decide)]
      simp [ExprHole.complete, closingKind]
  | _, _, _, @Expr.Spelled.ifThen tokens branchTokens word opening closing condition consequence
      wordKind openingKind conditionSpelled closingKind branchSpelled, hole, _ => by
      have admits : (ExprHole.condition hole).Admits loosestPower := fun _ _ _ => rfl
      rcases conditionSpelled.feed admits with ⟨state, fed, stands⟩
      refine ⟨.otherwise condition consequence hole, ?_, .otherwise⟩
      rw [stands.feed_branch fed wordKind openingKind closingKind]
      exact branchSpelled.feed (.consequence condition · hole)
        (fun _ kind => Reading.step_expect kind _) (fun _ _ => rfl) (by simp [StmtHole.close?])
  | _, _, _, @Expr.Spelled.ifElse tokens branchTokens otherTokens word opening closing other
      condition consequence alternative wordKind openingKind conditionSpelled closingKind
      branchSpelled otherKind otherSpelled, hole, _ => by
      have admits : (ExprHole.condition hole).Admits loosestPower := fun _ _ _ => rfl
      rcases conditionSpelled.feed admits with ⟨state, fed, stands⟩
      have branchFed : (Reading.expect .leftBrace
          (.statement (.consequence condition [] hole))).feed branchTokens =
            ([], .otherwise condition consequence hole) :=
        branchSpelled.feed (.consequence condition · hole)
          (fun _ kind => Reading.step_expect kind _) (fun _ _ => rfl) (by simp [StmtHole.close?])
      have taken : (Reading.otherwise condition consequence hole).step other =
          ([], .expect .leftBrace (.statement (.alternative condition consequence [] hole))) := by
        simp [Reading.step, otherKind]
      refine ⟨.operator (.ifElse condition consequence alternative) hole, ?_, .operator⟩
      rw [stands.feed_branch fed wordKind openingKind closingKind,
        Reading.feed_append_of_eq branchFed, Reading.feed_cons_of_eq taken]
      exact otherSpelled.feed (.alternative condition consequence · hole)
        (fun _ kind => Reading.step_expect kind _) (fun _ _ => rfl) (by simp [StmtHole.close?])
  | _, _, _, @Expr.Spelled.fn paramTokens bodyTokens word opening closing params body wordKind
      openingKind paramsSpelled closingKind bodySpelled, hole, _ => by
      have started : (Reading.operand hole).step word =
          ([], .expect .leftParen (.firstParam hole)) := by
        simp [Reading.step, ExprHole.start, wordKind]
      refine ⟨.operator (.fn params body) hole, ?_, .operator⟩
      rw [Reading.feed_cons_of_eq started,
        Reading.feed_cons_of_eq (Reading.step_expect openingKind _),
        paramsSpelled.feed_closing closingKind]
      exact bodySpelled.feed (.body params · hole)
        (fun _ kind => Reading.step_expect kind _) (fun _ _ => rfl) (by simp [StmtHole.close?])
termination_by structural _ _ _ spelled => spelled

theorem Expr.ArgsSpelled.feed : ∀ {tokens : List Token} {args : List Expr},
    Expr.ArgsSpelled tokens args → args ≠ [] → ∀ (callee : Expr) (hole : ExprHole),
      ∃ state earlier last, args = earlier ++ [last] ∧
        (Reading.firstArgument callee hole).feed tokens = ([], state) ∧
        state.Stands loosestPower last (.argument callee earlier.reverse hole)
  | _, _, .none, nonempty, _, _ => absurd rfl nonempty
  | _, _, @Expr.ArgsSpelled.first tokens arg argSpelled, _, callee, hole => by
      have admits : (ExprHole.argument callee [] hole).Admits loosestPower := fun _ _ _ => rfl
      rcases argSpelled.feed admits with ⟨state, fed, stands⟩
      rw [← argSpelled.feed_firstArgument callee hole] at fed
      exact ⟨state, [], arg, rfl, fed, stands⟩
  | _, _, @Expr.ArgsSpelled.later tokens argTokens args comma arg earlierSpelled nonempty commaKind
      argSpelled, _, callee, hole => by
      rcases earlierSpelled.feed nonempty callee hole with
        ⟨middle, earlier, last, rfl, earlierFed, earlierStands⟩
      have taken : middle.step comma =
          ([], .operand (.argument callee (earlier ++ [last]).reverse hole)) := by
        rw [earlierStands.complete commaKind (by decide)]
        simp [ExprHole.complete, commaKind]
      have admits : (ExprHole.argument callee (earlier ++ [last]).reverse hole).Admits
          loosestPower := fun _ _ _ => rfl
      rcases argSpelled.feed admits with ⟨state, fed, stands⟩
      refine ⟨state, earlier ++ [last], arg, rfl, ?_, stands⟩
      rw [Reading.feed_append_of_eq earlierFed, Reading.feed_cons_of_eq taken, fed]
termination_by structural _ _ spelled => spelled

theorem Stmt.Spelled.feed : ∀ {bare : Bool} {tokens : List Token} {stmt : Stmt},
    Stmt.Spelled bare tokens stmt → ∀ hole : StmtHole,
      ((Reading.statement hole).feed tokens).Awaits bare (hole.fill stmt)
  | _, _, _, @Stmt.Spelled.letBe bare tokens endTokens word name assign value wordKind nameKind
      assignKind valueSpelled endSpelled, hole => by
      have admits : (ExprHole.letValue name.literal hole).Admits loosestPower := fun _ _ _ => rfl
      rcases valueSpelled.feed admits with ⟨state, fed, stands⟩
      have started : (Reading.statement hole).step word = ([], .letName hole) := by
        simp [Reading.step, StmtHole.start, wordKind]
      have named : (Reading.letName hole).step name =
          ([], .expect .assign (.operand (.letValue name.literal hole))) := by
        simp [Reading.step, nameKind]
      rw [Reading.feed_cons_of_eq started, Reading.feed_cons_of_eq named,
        Reading.feed_cons_of_eq (Reading.step_expect assignKind _), Reading.feed_append_of_eq fed]
      exact .of_stands stands (fun _ => rfl) endSpelled
  | _, _, _, @Stmt.Spelled.ret bare tokens endTokens word value wordKind valueSpelled endSpelled,
      hole => by
      have admits : (ExprHole.retValue hole).Admits loosestPower := fun _ _ _ => rfl
      rcases valueSpelled.feed admits with ⟨state, fed, stands⟩
      have started : (Reading.statement hole).step word = ([], .operand (.retValue hole)) := by
        simp [Reading.step, StmtHole.start, wordKind]
      rw [Reading.feed_cons_of_eq started, Reading.feed_append_of_eq fed]
      exact .of_stands stands (fun _ => rfl) endSpelled
  | _, _, _, @Stmt.Spelled.expr bare tokens endTokens value valueSpelled endSpelled, hole => by
      have admits : (ExprHole.statement hole).Admits loosestPower := fun _ _ _ => rfl
      rcases valueSpelled.feed admits with ⟨state, fed, stands⟩
      rw [← valueSpelled.feed_statement hole] at fed
      rw [Reading.feed_append_of_eq fed]
      exact .of_stands stands (fun _ => rfl) endSpelled
  | _, _, _, @Stmt.Spelled.block tokens body bodySpelled, hole => by
      have fed : (Reading.statement hole).feed tokens =
          ((hole.fill (.block body)).1, .statement (hole.fill (.block body)).2) :=
        bodySpelled.feed (.block · hole)
          (fun _ kind => by simp [Reading.step, StmtHole.start, kind]) (fun _ _ => rfl)
          (by simp [StmtHole.close?])
      rw [fed]
      exact .statement _
termination_by structural _ _ _ spelled => spelled

theorem Program.BlockSpelled.feed : ∀ {tokens : List Token} {body : List Stmt},
    Program.BlockSpelled tokens body → ∀ {state : Reading} (inner : List Stmt → StmtHole)
      {step : Step},
      (∀ token : Token, token.kind = .symbol .leftBrace →
        state.step token = ([], .statement (inner []))) →
      (∀ stmt earlier, (inner earlier).fill stmt = ([], inner (stmt :: earlier))) →
      (inner body.reverse).close? = some step → state.feed tokens = step
  | _, _, @Program.BlockSpelled.mk bare tokens opening closing body openingKind bodySpelled
      closingKind, state, inner, step, opens, fills, closes => by
      have awaits := bodySpelled.feed (inner [])
      rw [StmtHole.fillAll_of_fill fills, List.append_nil] at awaits
      rw [Reading.feed_cons_of_eq (opens opening openingKind),
        awaits.feed_append (fun _ => Token.breaks_of_rightBrace closingKind)]
      simp [Reading.step, StmtHole.start, closingKind, closes]
termination_by structural _ _ spelled => spelled

theorem Program.Spelled.feed : ∀ {bare : Bool} {tokens : List Token} {program : List Stmt},
    Program.Spelled bare tokens program → ∀ hole : StmtHole,
      ((Reading.statement hole).feed tokens).Awaits bare (hole.fillAll program)
  | _, _, _, .nil, hole => .statement _
  | _, _, _, @Program.Spelled.snoc bare lastBare tokens lastTokens program last earlier apart
      lastSpelled, hole => by
      have awaits := earlier.feed hole
      have lastAwaits := (lastSpelled.feed (hole.fillAll program).2).after (hole.fillAll program).1
      rcases lastSpelled.head with ⟨token, rest, rfl, starts⟩
      have breaks : bare = true → token.Breaks := fun isBare =>
        Token.breaks_of_stmtStarts starts (apart isBare token (by simp))
      rw [awaits.feed_append breaks, StmtHole.fillAll_append]
      simpa [StmtHole.fillAll] using lastAwaits
termination_by structural _ _ _ spelled => spelled

end

/-- A spelled program is read as it is spelled, up to the end of the source. -/
theorem Program.Spelled.feed_end {bare : Bool} {tokens : List Token} {program : Program}
    (spelled : Program.Spelled bare tokens program) {finish : Token}
    (finishKind : finish.kind = .eof) :
    Reading.start.feed (tokens ++ [finish]) = (program.map .parsed, .ended) := by
  have breaks : bare = true → finish.Breaks := fun _ =>
    ⟨by simp [finishKind], by rw [finishKind]; rfl, by simp [finishKind], by simp [finishKind]⟩
  rw [Reading.start, (spelled.feed .program).feed_append breaks, StmtHole.fillAll_program]
  simp [Reading.step, StmtHole.start, StmtHole.finish, finishKind, Step.after]

end Monkey
