import Monkey.Proofs.Reading.Joining
import Monkey.Proofs.Reading.Recovery
import Monkey.Proofs.Token.Munching

/-!
# Words of a source text

The words in a program that is read from a source text are those of its tokens: names are runs of name
characters that are no keywords, integers have no sign, and no string has a quote in it. That other
statements of the text fail makes no difference, since no statement holds tokens of one that failed.
-/

namespace Monkey

/-! ### Tokens -/

/-- What a name, an integer or a string says is what can be written as one. -/
structure Token.Worded (token : Token) : Prop where
  name : token.kind = .ident → IsName token.literal
  digits : token.kind = .int → ∀ digit ∈ token.literal.toList, digit.isDigit = true
  noQuote : token.kind = .str → '"' ∉ token.literal.toList

theorem Token.WellFormed.worded {token : Token} {after : List Char}
    (wellFormed : token.WellFormed after) : token.Worded := by
  unfold Token.WellFormed at wellFormed
  constructor
  all_goals
    intro isKind
    rw [isKind] at wellFormed
  · exact wellFormed
  · exact wellFormed.2
  · exact wellFormed

theorem Segmented.worded {position : Nat} {text : List Char} {tokens : List Token}
    (segmented : Segmented position text tokens) : ∀ token ∈ tokens, token.Worded := by
  induction segmented with
  | spacing =>
      intro token member
      rw [List.mem_singleton.mp member]
      exact ⟨nofun, nofun, nofun⟩
  | @lexeme position blank text char tokens _ solid _ ih =>
      exact List.forall_mem_cons.mpr ⟨(Lexeme.munched_cut _ solid text).1.worded, ih⟩

theorem worded_tokensBeforeEnd (source : String) :
    ∀ token ∈ tokensBeforeEnd source, token.Worded := by
  intro token member
  exact (segmented_tokenize source).worded token ((List.dropLast_sublist _).subset member)

/-! ### Trees -/

mutual

/-- Each name of the expression is one, its integers have no sign and fit, and its strings have no
quote. -/
def Expr.Spellable : Expr → Prop
  | .ident name => IsName name
  | .int value => 0 ≤ value ∧ value ≤ maxInteger
  | .bool _ => True
  | .str text => '"' ∉ text.toList
  | .unary _ operand => operand.Spellable
  | .binary left _ right => left.Spellable ∧ right.Spellable
  | .ifThen condition consequence => condition.Spellable ∧ Program.Spellable consequence
  | .ifElse condition consequence alternative =>
    condition.Spellable ∧ Program.Spellable consequence ∧ Program.Spellable alternative
  | .fn params body => (∀ param ∈ params, IsName param) ∧ Program.Spellable body
  | .call callee args => callee.Spellable ∧ Expr.AllSpellable args

def Expr.AllSpellable : List Expr → Prop
  | [] => True
  | expr :: rest => expr.Spellable ∧ Expr.AllSpellable rest

def Stmt.Spellable : Stmt → Prop
  | .letBe name value => IsName name ∧ value.Spellable
  | .ret value | .expr value => value.Spellable
  | .block body => Program.Spellable body

def Program.Spellable : List Stmt → Prop
  | [] => True
  | stmt :: rest => stmt.Spellable ∧ Program.Spellable rest

end

theorem Expr.allSpellable_append {first second : List Expr} :
    Expr.AllSpellable (first ++ second) ↔ Expr.AllSpellable first ∧ Expr.AllSpellable second := by
  induction first with
  | nil => simp [Expr.AllSpellable]
  | cons expr rest ih => simp [Expr.AllSpellable, ih, and_assoc]

theorem Program.spellable_append {first second : List Stmt} :
    Program.Spellable (first ++ second) ↔ Program.Spellable first ∧ Program.Spellable second := by
  induction first with
  | nil => simp [Program.Spellable]
  | cons stmt rest ih => simp [Program.Spellable, ih, and_assoc]

theorem IntegerSpelled.spellable {digits : List Char} {value : Int}
    (spelled : IntegerSpelled digits value) (decimal : ∀ digit ∈ digits, digit.isDigit = true) :
    0 ≤ value ∧ value ≤ maxInteger := by
  rcases spelled with @⟨sign, digits, _, _, _, signed, fits⟩
  refine ⟨?_, fits.2⟩
  rcases signed with ⟨-, rfl⟩ | ⟨rfl, -⟩
  · omega
  · exact absurd (decimal '-' (by simp)) (by decide)

theorem ParamsSpelled.isName {tokens : List Token} {params : List String}
    (spelled : ParamsSpelled tokens params) (worded : ∀ token ∈ tokens, token.Worded) :
    ∀ param ∈ params, IsName param := by
  induction spelled with
  | none => exact List.forall_mem_nil _
  | first nameKind =>
      exact List.forall_mem_singleton.mpr ((List.forall_mem_singleton.mp worded).name nameKind)
  | later earlier nonempty commaKind nameKind ih =>
      simp only [List.forall_mem_append, List.forall_mem_cons] at worded ⊢
      exact ⟨ih worded.1, worded.2.2.1.name nameKind, List.forall_mem_nil _⟩

mutual

theorem Expr.Spelled.spellable : ∀ {power : Nat} {tokens : List Token} {expr : Expr},
    Expr.Spelled power tokens expr → (∀ token ∈ tokens, token.Worded) → expr.Spellable
  | _, _, _, .climb tighter, worded => tighter.spellable worded
  | _, _, _, .binary leftSpelled _ rightSpelled, worded => by
      simp only [List.forall_mem_append, List.forall_mem_cons] at worded
      exact ⟨leftSpelled.spellable worded.1, rightSpelled.spellable worded.2.2⟩
  | _, _, _, .unary _ operandSpelled, worded =>
      operandSpelled.spellable (List.forall_mem_cons.mp worded).2
  | _, _, _, .call calleeSpelled _ argsSpelled _, worded => by
      simp only [List.forall_mem_append, List.forall_mem_cons] at worded
      exact ⟨calleeSpelled.spellable worded.1, argsSpelled.spellable worded.2.2.1⟩
  | _, _, _, .ident nameKind, worded => (List.forall_mem_singleton.mp worded).name nameKind
  | _, _, _, .int literalKind valueSpelled, worded =>
      valueSpelled.spellable ((List.forall_mem_singleton.mp worded).digits literalKind)
  | _, _, _, .str literalKind, worded => (List.forall_mem_singleton.mp worded).noQuote literalKind
  | _, _, _, .yes _, _ => trivial
  | _, _, _, .no _, _ => trivial
  | _, _, _, .group _ exprSpelled _, worded => by
      simp only [List.forall_mem_append, List.forall_mem_cons] at worded
      exact exprSpelled.spellable worded.2.1
  | _, _, _, .ifThen _ _ conditionSpelled _ branchSpelled, worded => by
      simp only [List.forall_mem_append, List.forall_mem_cons] at worded
      exact ⟨conditionSpelled.spellable worded.2.2.1, branchSpelled.spellable worded.2.2.2.2⟩
  | _, _, _, .ifElse _ _ conditionSpelled _ branchSpelled _ otherSpelled, worded => by
      simp only [List.forall_mem_append, List.forall_mem_cons] at worded
      exact ⟨conditionSpelled.spellable worded.2.2.1, branchSpelled.spellable worded.2.2.2.2.1,
        otherSpelled.spellable worded.2.2.2.2.2.2⟩
  | _, _, _, .fn _ _ paramsSpelled _ bodySpelled, worded => by
      simp only [List.forall_mem_append, List.forall_mem_cons] at worded
      exact ⟨paramsSpelled.isName worded.2.2.1, bodySpelled.spellable worded.2.2.2.2⟩
termination_by structural _ _ _ spelled => spelled

theorem Expr.ArgsSpelled.spellable : ∀ {tokens : List Token} {args : List Expr},
    Expr.ArgsSpelled tokens args → (∀ token ∈ tokens, token.Worded) → Expr.AllSpellable args
  | _, _, .none, _ => trivial
  | _, _, .first argSpelled, worded => ⟨argSpelled.spellable worded, trivial⟩
  | _, _, .later earlier _ _ argSpelled, worded => by
      simp only [List.forall_mem_append, List.forall_mem_cons] at worded
      exact Expr.allSpellable_append.mpr
        ⟨earlier.spellable worded.1, argSpelled.spellable worded.2.2, trivial⟩
termination_by structural _ _ spelled => spelled

theorem Stmt.Spelled.spellable : ∀ {bare : Bool} {tokens : List Token} {stmt : Stmt},
    Stmt.Spelled bare tokens stmt → (∀ token ∈ tokens, token.Worded) → stmt.Spellable
  | _, _, _, .letBe _ nameKind _ valueSpelled _, worded => by
      simp only [List.forall_mem_append, List.forall_mem_cons] at worded
      exact ⟨worded.2.1.name nameKind, valueSpelled.spellable worded.2.2.2.1⟩
  | _, _, _, .ret _ valueSpelled _, worded => by
      simp only [List.forall_mem_append, List.forall_mem_cons] at worded
      exact valueSpelled.spellable worded.2.1
  | _, _, _, .expr valueSpelled _, worded =>
      valueSpelled.spellable (List.forall_mem_append.mp worded).1
  | _, _, _, .block bodySpelled, worded => bodySpelled.spellable worded
termination_by structural _ _ _ spelled => spelled

theorem Program.BlockSpelled.spellable : ∀ {tokens : List Token} {body : List Stmt},
    Program.BlockSpelled tokens body → (∀ token ∈ tokens, token.Worded) → Program.Spellable body
  | _, _, .mk _ bodySpelled _, worded => by
      simp only [List.forall_mem_append, List.forall_mem_cons] at worded
      exact bodySpelled.spellable worded.2.1
termination_by structural _ _ spelled => spelled

theorem Program.Spelled.spellable : ∀ {bare : Bool} {tokens : List Token} {program : List Stmt},
    Program.Spelled bare tokens program → (∀ token ∈ tokens, token.Worded) →
      Program.Spellable program
  | _, _, _, .nil, _ => trivial
  | _, _, _, .snoc earlier _ lastSpelled, worded => by
      rw [List.forall_mem_append] at worded
      exact Program.spellable_append.mpr
        ⟨earlier.spellable worded.1, lastSpelled.spellable worded.2, trivial⟩
termination_by structural _ _ _ spelled => spelled

end

/-- What is read from a source text without an error can be written. -/
theorem spellable_of_parseText {source : String} {program : Program}
    (reads : parseText source = (program, [])) : Program.Spellable program := by
  rcases parseText_eq_iff_spelled.mp reads with ⟨bare, spelled⟩
  exact spelled.spellable (worded_tokensBeforeEnd source)

/-! ### Programs with errors -/

theorem Portion.Fits.spellable {next : Token} {portion : Portion} (fits : portion.Fits next)
    (worded : ∀ token ∈ portion.tokens, token.Worded) :
    Program.Spellable (Outcome.program [portion.outcome]) := by
  cases fits with
  | parsed spelled only => exact ⟨spelled.spellable worded, trivial⟩
  | refused | skipped | ended => exact trivial

theorem Portioned.spellable {finish : Token} {tokens : List Token} {portions : List Portion}
    (portioned : Portioned finish tokens portions) (worded : ∀ token ∈ tokens, token.Worded) :
    Program.Spellable (Outcome.program (portions.map Portion.outcome)) := by
  induction portioned with
  | done => exact trivial
  | @round portion rest later nonempty fits yields restPortioned ih =>
      rw [List.forall_mem_append] at worded
      rw [List.map_cons, ← List.singleton_append, Outcome.program_append]
      exact Program.spellable_append.mpr ⟨fits.spellable worded.1, ih worded.2⟩

/-- Whatever is read from a source text can be written, also where other statements of it fail. -/
theorem spellable_parseText (source : String) : Program.Spellable (parseText source).1 := by
  rcases tokenize_eq_append_end source with ⟨finish, tokens, noEnd⟩
  have finishKind : (Token.eof finish).kind = .eof := rfl
  rcases Portioned.exists_of_tokens finishKind _ noEnd with ⟨portions, portioned⟩
  rw [parseText, tokens, parse, portioned.outcomesOf_eq finishKind]
  exact portioned.spellable (worded_tokensBeforeEnd source)

end Monkey
