import Monkey.Program.Printer
import Monkey.Proofs.Printing.Tokens
import Monkey.Proofs.Reading.Joining

/-!
# Reading what has been written

A program without branches and functions is written in a way that shows its shape: reading its text
gives it back. Each operation is written in parentheses, so the text spells it as an expression that
stands on its own, and whatever is written next to it leaves it alone.
-/

namespace Monkey

/-- Expressions whose text shows their shape. -/
inductive Expr.Legible : Expr → Prop where
  | ident {name : String} (isName : IsName name) : Expr.Legible (.ident name)
  | int {value : Int} (nonnegative : 0 ≤ value) (fits : value ≤ maxInteger) :
      Expr.Legible (.int value)
  | bool (value : Bool) : Expr.Legible (.bool value)
  | str {text : String} (noQuote : '"' ∉ text.toList) : Expr.Legible (.str text)
  | unary (op : UnaryOp) {operand : Expr} (operandLegible : Expr.Legible operand) :
      Expr.Legible (.unary op operand)
  | binary {left right : Expr} (leftLegible : Expr.Legible left) (op : BinaryOp)
      (rightLegible : Expr.Legible right) : Expr.Legible (.binary left op right)
  | call {callee : Expr} {args : List Expr} (calleeLegible : Expr.Legible callee)
      (argsLegible : ∀ arg ∈ args, Expr.Legible arg) : Expr.Legible (.call callee args)

/-- Programs whose text shows their shape: bindings and returns, and at most one more expression
behind them, since no separator is written behind an expression. -/
inductive Program.Legible : Program → Prop where
  | nil : Program.Legible []
  | expr {value : Expr} (valueLegible : value.Legible) : Program.Legible [.expr value]
  | letBe {name : String} {value : Expr} {rest : Program} (isName : IsName name)
      (valueLegible : value.Legible) (restLegible : Program.Legible rest) :
      Program.Legible (.letBe name value :: rest)
  | ret {value : Expr} {rest : Program} (valueLegible : value.Legible)
      (restLegible : Program.Legible rest) : Program.Legible (.ret value :: rest)

/-! ### Expressions -/

/-- The text of the expression has these tokens, and they spell it. -/
structure Expr.Written (expr : Expr) (tokens : List Token) : Prop where
  spelled : Expr.Spelled callPower tokens expr
  noEquals : ∀ rest, (expr.text.toList ++ rest).head? ≠ some '='
  cutAs : ∀ {rest : List Char} {later : List Token}, Stops rest → CutAs rest later →
    CutAs (expr.text.toList ++ rest) (tokens ++ later)

/-- The text of the arguments has these tokens, and they spell them. -/
structure Expr.ArgsWritten (args : List Expr) (tokens : List Token) : Prop where
  spelled : Expr.ArgsSpelled tokens args
  cutAs : ∀ {rest : List Char} {later : List Token}, Stops rest → CutAs rest later →
    CutAs ((commaSeparated (Expr.texts args)).toList ++ rest) (tokens ++ later)

theorem isDigit_of_mem_toDigits {size : Nat} :
    ∀ digit ∈ Nat.toDigits 10 size, digit.isDigit = true := by
  intro digit member
  exact Nat.isDigit_of_mem_toDigits (by omega) (by omega) member

theorem toList_writeInteger (size : Nat) :
    (writeInteger size).toList = Nat.toDigits 10 size := by
  change (Nat.repr size).toList = _
  rw [Nat.toList_repr]

theorem integerSpelled_toDigits {size : Nat} (fits : (size : Int) ≤ maxInteger) :
    IntegerSpelled (Nat.toDigits 10 size) size := by
  have value : (size : Int) = (Nat.ofDigitChars 10 (Nat.toDigits 10 size) 0 : Int) := by
    rw [Nat.ofDigitChars_ten_toDigits]
  exact @IntegerSpelled.mk [] _ _ Nat.toDigits_ne_nil isDigit_of_mem_toDigits
    (.inl ⟨.inl rfl, value⟩) ⟨by omega, fits⟩

theorem head?_append_ne {stop : Char} {text : List Char} (nonempty : text ≠ [])
    (absent : stop ∉ text) (rest : List Char) : (text ++ rest).head? ≠ some stop := by
  cases text with
  | nil => exact absurd rfl nonempty
  | cons first more =>
      rw [List.cons_append, List.head?_cons]
      rintro ⟨rfl⟩
      exact absent List.mem_cons_self

namespace Expr.Written

theorem ident {name : String} (isName : IsName name) :
    (Expr.ident name).Written [⟨.ident, name, .origin⟩] where
  spelled := .climb (.ident rfl)
  noEquals := by
    apply head?_append_ne
    · exact fun empty => isName.nonempty (String.toList_eq_nil_iff.mp empty)
    · exact fun member => absurd (isName.chars _ member) (by decide)
  cutAs stops cutAs := .name isName stops cutAs

theorem int {size : Nat} (fits : (size : Int) ≤ maxInteger) :
    (Expr.int size).Written [⟨.int, String.ofList (Nat.toDigits 10 size), .origin⟩] where
  spelled := by
    refine .climb (.int rfl ?_)
    rw [String.toList_ofList]
    exact integerSpelled_toDigits fits
  noEquals := by
    rw [Expr.text, toList_writeInteger]
    apply head?_append_ne Nat.toDigits_ne_nil
    exact fun member => absurd (isDigit_of_mem_toDigits _ member) (by decide)
  cutAs stops cutAs := by
    rw [Expr.text, toList_writeInteger]
    exact .numeral Nat.toDigits_ne_nil isDigit_of_mem_toDigits stops cutAs

theorem bool (value : Bool) : ∃ tokens, (Expr.bool value).Written tokens := by
  cases value with
  | true => exact ⟨_, .climb (.yes rfl), by simp [Expr.text, writeBool], CutAs.keyword .trueWord⟩
  | false => exact ⟨_, .climb (.no rfl), by simp [Expr.text, writeBool], CutAs.keyword .falseWord⟩

theorem str {text : String} (noQuote : '"' ∉ text.toList) :
    (Expr.str text).Written [⟨.str, text, .origin⟩] where
  spelled := .climb (.str rfl)
  noEquals rest := by simp [Expr.text]
  cutAs _ cutAs := .str noQuote cutAs

theorem unary {op : UnaryOp} {operand : Expr} {tokens : List Token}
    (written : operand.Written tokens) :
    (Expr.unary op operand).Written
      (Symbol.leftParen.token :: (op.symbol.token :: tokens ++ [Symbol.rightParen.token])) where
  spelled := by
    have operandSpelled := written.spelled.mono (show unaryPower ≤ callPower by decide)
    have signSpelled : op.Spelled op.symbol.token.kind := UnaryOp.spelled_iff.mpr rfl
    have whole := Expr.Spelled.unary signSpelled operandSpelled
    exact .climb (.group rfl (whole.mono (by decide)) rfl)
  noEquals := by simp [Expr.text]
  cutAs := by
    intro rest later _ cutAs
    have text : (Expr.unary op operand).text.toList ++ rest =
        Symbol.leftParen.text.toList ++ (op.symbol.text.toList ++
          (operand.text.toList ++ (Symbol.rightParen.text.toList ++ rest))) := by
      simp [Expr.text, UnaryOp.text, Symbol.text]
    have closing := CutAs.symbol .rightParen (.inl rfl) cutAs
    have inner := written.cutAs (.cons (by decide) (by decide) rest) closing
    have sign := CutAs.symbol op.symbol (.inr (written.noEquals _)) inner
    rw [text, List.cons_append, List.append_assoc]
    exact .symbol .leftParen (.inl rfl) sign

theorem binary {op : BinaryOp} {left right : Expr} {leftTokens rightTokens : List Token}
    (leftWritten : left.Written leftTokens) (rightWritten : right.Written rightTokens) :
    (Expr.binary left op right).Written
      (Symbol.leftParen.token ::
        (leftTokens ++ op.symbol.token :: rightTokens ++ [Symbol.rightParen.token])) where
  spelled := by
    have powers : op.power + 1 ≤ callPower ∧ loosestPower ≤ op.power := by
      cases op <;> decide
    have leftSpelled := leftWritten.spelled.mono (Nat.le_of_succ_le powers.1)
    have rightSpelled := rightWritten.spelled.mono powers.1
    have signSpelled : op.Spelled op.power op.symbol.token.kind :=
      BinaryOp.spelled_iff.mpr ⟨rfl, rfl⟩
    have whole := Expr.Spelled.binary leftSpelled signSpelled rightSpelled
    exact .climb (.group rfl (whole.mono powers.2) rfl)
  noEquals := by simp [Expr.text]
  cutAs := by
    intro rest later _ cutAs
    have text : (Expr.binary left op right).text.toList ++ rest =
        Symbol.leftParen.text.toList ++ (left.text.toList ++
          ' ' :: (op.symbol.text.toList ++
            ' ' :: (right.text.toList ++ (Symbol.rightParen.text.toList ++ rest)))) := by
      simp [Expr.text, BinaryOp.text, Symbol.text]
    have closing := CutAs.symbol .rightParen (.inl rfl) cutAs
    have operand := rightWritten.cutAs (.cons (by decide) (by decide) rest) closing
    have sign := CutAs.symbol op.symbol (.inr (by simp)) operand.space
    have inner := leftWritten.cutAs (.cons (by decide) (by decide) _) sign.space
    rw [text, List.cons_append, List.append_assoc, List.append_assoc, List.cons_append]
    exact .symbol .leftParen (.inl rfl) inner

theorem call {callee : Expr} {args : List Expr} {tokens argTokens : List Token}
    (calleeWritten : callee.Written tokens) (argsWritten : Expr.ArgsWritten args argTokens) :
    (Expr.call callee args).Written
      (tokens ++ Symbol.leftParen.token :: (argTokens ++ [Symbol.rightParen.token])) where
  spelled := .call calleeWritten.spelled rfl argsWritten.spelled rfl
  noEquals := by
    intro rest
    rw [Expr.text, String.append_assoc, String.append_assoc, String.toList_append, List.append_assoc]
    exact calleeWritten.noEquals _
  cutAs := by
    intro rest later _ cutAs
    have text : (Expr.call callee args).text.toList ++ rest =
        callee.text.toList ++ (Symbol.leftParen.text.toList ++
          ((commaSeparated (Expr.texts args)).toList ++
            (Symbol.rightParen.text.toList ++ rest))) := by
      simp [Expr.text, Symbol.text]
    have closing := CutAs.symbol .rightParen (.inl rfl) cutAs
    have inner := argsWritten.cutAs (.cons (by decide) (by decide) rest) closing
    have opening := CutAs.symbol .leftParen (.inl rfl) inner
    rw [text, List.append_assoc, List.cons_append, List.append_assoc]
    exact calleeWritten.cutAs (.cons (by decide) (by decide) _) opening

end Expr.Written

/-! ### Arguments -/

theorem Expr.ArgsSpelled.cons {tokens : List Token} {arg : Expr} {comma : Token}
    (argSpelled : Expr.Spelled loosestPower tokens arg) (commaKind : comma.kind = .symbol .comma) :
    ∀ {more : List Token} {args : List Expr}, Expr.ArgsSpelled more args → args ≠ [] →
      Expr.ArgsSpelled (tokens ++ comma :: more) (arg :: args)
  | _, _, .none, nonempty => absurd rfl nonempty
  | _, _, .first lastSpelled, _ => .later (.first argSpelled) (by simp) commaKind lastSpelled
  | _, _, .later earlier nonempty otherKind lastSpelled, _ => by
      have whole := Expr.ArgsSpelled.later (earlier.cons argSpelled commaKind nonempty) (by simp)
        otherKind lastSpelled
      simpa using whole
termination_by structural _ _ spelled => spelled

namespace Expr.ArgsWritten

theorem nil : Expr.ArgsWritten [] [] where
  spelled := .none
  cutAs _ cutAs := cutAs

theorem single {arg : Expr} {tokens : List Token} (written : arg.Written tokens) :
    Expr.ArgsWritten [arg] tokens where
  spelled := .first (written.spelled.mono (by decide))
  cutAs := written.cutAs

theorem cons {arg : Expr} {args : List Expr} {tokens argTokens : List Token}
    (written : arg.Written tokens) (argsWritten : Expr.ArgsWritten args argTokens)
    (nonempty : args ≠ []) :
    Expr.ArgsWritten (arg :: args) (tokens ++ Symbol.comma.token :: argTokens) where
  spelled := .cons (written.spelled.mono (by decide)) rfl argsWritten.spelled nonempty
  cutAs := by
    intro rest later stops cutAs
    have text : (commaSeparated (Expr.texts (arg :: args))).toList ++ rest =
        arg.text.toList ++ (Symbol.comma.text.toList ++
          ' ' :: ((commaSeparated (Expr.texts args)).toList ++ rest)) := by
      cases args with
      | nil => exact absurd rfl nonempty
      | cons next others => simp [Expr.texts, commaSeparated, Symbol.text]
    have others := (argsWritten.cutAs stops cutAs).space
    have comma := CutAs.symbol .comma (.inl rfl) others
    rw [text, List.append_assoc, List.cons_append]
    exact written.cutAs (.cons (by decide) (by decide) _) comma

theorem exists_of_forall {args : List Expr} (written : ∀ arg ∈ args, ∃ tokens, arg.Written tokens) :
    ∃ tokens, Expr.ArgsWritten args tokens := by
  induction args with
  | nil => exact ⟨[], nil⟩
  | cons arg args ih =>
      rcases written arg List.mem_cons_self with ⟨tokens, argWritten⟩
      rcases ih (fun other member => written other (List.mem_cons_of_mem _ member))
        with ⟨argTokens, argsWritten⟩
      cases args with
      | nil => exact ⟨tokens, single argWritten⟩
      | cons next others => exact ⟨_, cons argWritten argsWritten (by simp)⟩

end Expr.ArgsWritten

theorem Expr.Legible.exists_written {expr : Expr} (legible : expr.Legible) :
    ∃ tokens, expr.Written tokens := by
  induction legible with
  | ident isName => exact ⟨_, .ident isName⟩
  | int nonnegative fits =>
      rcases Int.eq_ofNat_of_zero_le nonnegative with ⟨size, rfl⟩
      exact ⟨_, .int fits⟩
  | bool value => exact Expr.Written.bool value
  | str noQuote => exact ⟨_, .str noQuote⟩
  | unary op _ operand =>
      rcases operand with ⟨tokens, written⟩
      exact ⟨_, written.unary⟩
  | binary _ op _ left right =>
      rcases left with ⟨leftTokens, leftWritten⟩
      rcases right with ⟨rightTokens, rightWritten⟩
      exact ⟨_, leftWritten.binary rightWritten⟩
  | call _ _ callee args =>
      rcases callee with ⟨tokens, calleeWritten⟩
      rcases Expr.ArgsWritten.exists_of_forall args with ⟨argTokens, argsWritten⟩
      exact ⟨_, calleeWritten.call argsWritten⟩

/-! ### Statements -/

/-- The text of the statement, semicolon included, has these tokens, and they spell it. -/
structure Stmt.Written (stmt : Stmt) (tokens : List Token) : Prop where
  spelled : Stmt.Spelled false tokens stmt
  cutAs : ∀ {rest : List Char} {later : List Token}, CutAs rest later →
    CutAs (stmt.text.toList ++ rest) (tokens ++ later)

/-- A binding of a text that has some tokens. -/
theorem CutAs.letBe {name text : String} {tokens later : List Token} {rest : List Char}
    (isName : IsName name)
    (value : ∀ {rest : List Char} {later : List Token}, Stops rest → CutAs rest later →
      CutAs (text.toList ++ rest) (tokens ++ later))
    (cutAs : CutAs rest later) :
    CutAs (("let " ++ name ++ " = " ++ text ++ ";").toList ++ rest)
      (Keyword.letWord.token :: ⟨.ident, name, .origin⟩ :: Symbol.assign.token ::
        (tokens ++ [Symbol.semicolon.token]) ++ later) := by
  have parts : ("let " ++ name ++ " = " ++ text ++ ";").toList ++ rest =
      Keyword.letWord.text.toList ++ ' ' :: (name.toList ++ ' ' ::
        (Symbol.assign.text.toList ++ ' ' ::
          (text.toList ++ (Symbol.semicolon.text.toList ++ rest)))) := by
    simp [Keyword.text, Symbol.text]
  have ending := CutAs.symbol .semicolon (.inl rfl) cutAs
  have bound := value (.cons (by decide) (by decide) rest) ending
  have assign := CutAs.symbol .assign (.inr (by simp)) bound.space
  have named := CutAs.name isName (.cons (by decide) (by decide) _) assign.space
  rw [parts, List.cons_append, List.cons_append, List.cons_append, List.append_assoc]
  exact .keyword .letWord (.cons (by decide) (by decide) _) named.space

theorem Stmt.Written.letBe {name : String} {value : Expr} {tokens : List Token}
    (isName : IsName name) (written : value.Written tokens) :
    (Stmt.letBe name value).Written
      (Keyword.letWord.token :: ⟨.ident, name, .origin⟩ :: Symbol.assign.token ::
        (tokens ++ [Symbol.semicolon.token])) where
  spelled := .letBe rfl rfl rfl (written.spelled.mono (by decide)) (.present rfl)
  cutAs cutAs := .letBe isName written.cutAs cutAs

theorem Stmt.Written.ret {value : Expr} {tokens : List Token} (written : value.Written tokens) :
    (Stmt.ret value).Written
      (Keyword.returnWord.token :: (tokens ++ [Symbol.semicolon.token])) where
  spelled := .ret rfl (written.spelled.mono (by decide)) (.present rfl)
  cutAs := by
    intro rest later cutAs
    have text : (Stmt.ret value).text.toList ++ rest =
        Keyword.returnWord.text.toList ++ ' ' ::
          (value.text.toList ++ (Symbol.semicolon.text.toList ++ rest)) := by
      simp [Stmt.text, Keyword.text, Symbol.text]
    have ending := CutAs.symbol .semicolon (.inl rfl) cutAs
    have returned := written.cutAs (.cons (by decide) (by decide) rest) ending
    rw [text, List.cons_append, List.append_assoc]
    exact .keyword .returnWord (.cons (by decide) (by decide) _) returned.space

/-! ### Programs -/

/-- The text of the program has these tokens, and they spell it. -/
structure Program.Written (program : Program) (tokens : List Token) : Prop where
  spelled : ∃ bare, Program.Spelled bare tokens program
  cutAs : ∀ {rest : List Char} {later : List Token}, Stops rest → CutAs rest later →
    CutAs ((Program.text program).toList ++ rest) (tokens ++ later)

theorem Program.Written.cons {stmt : Stmt} {program : Program} {tokens more : List Token}
    (stmtWritten : stmt.Written tokens) (written : Program.Written program more) :
    Program.Written (stmt :: program) (tokens ++ more) where
  spelled := by
    rcases written.spelled with ⟨bare, spelled⟩
    exact ⟨bare, stmtWritten.spelled.alone.append spelled⟩
  cutAs := by
    intro rest later stops cutAs
    rw [Program.text, String.toList_append, List.append_assoc, List.append_assoc]
    exact stmtWritten.cutAs (written.cutAs stops cutAs)

theorem Program.Written.single {value : Expr} {tokens : List Token} (written : value.Written tokens) :
    Program.Written [.expr value] tokens where
  spelled := by
    have spelled := Stmt.Spelled.expr (written.spelled.mono (by decide)) .absent
    rw [List.append_nil] at spelled
    exact ⟨true, spelled.alone⟩
  cutAs := by
    intro rest later stops cutAs
    simpa [Program.text, Stmt.text] using written.cutAs stops cutAs

theorem Program.Legible.exists_written {program : Program} (legible : Program.Legible program) :
    ∃ tokens, Program.Written program tokens := by
  induction legible with
  | nil => exact ⟨[], ⟨false, .nil⟩, fun _ cutAs => cutAs⟩
  | expr valueLegible =>
      rcases valueLegible.exists_written with ⟨tokens, written⟩
      exact ⟨tokens, .single written⟩
  | letBe isName valueLegible _ ih =>
      rcases valueLegible.exists_written with ⟨tokens, written⟩
      rcases ih with ⟨more, restWritten⟩
      exact ⟨_, .cons (.letBe isName written) restWritten⟩
  | ret valueLegible _ ih =>
      rcases valueLegible.exists_written with ⟨tokens, written⟩
      rcases ih with ⟨more, restWritten⟩
      exact ⟨_, .cons (.ret written) restWritten⟩

theorem unplaced_tokensBeforeEnd_of_cutAs {source : String} {tokens : List Token}
    (cutAs : CutAs source.toList tokens) :
    (tokensBeforeEnd source).map Token.unplaced = tokens := by
  have whole := cutAs 0
  change (tokenize source).map Token.unplaced = _ at whole
  rw [tokensBeforeEnd, List.map_dropLast, whole, List.dropLast_concat]

theorem Program.Written.parseText {program : Program} {tokens : List Token}
    (written : Program.Written program tokens) :
    parseText (Program.text program) = (program, []) := by
  have cutAs := written.cutAs .nil .nil
  rw [List.append_nil, List.append_nil] at cutAs
  rw [parseText_eq_iff, unplaced_tokensBeforeEnd_of_cutAs cutAs]
  exact written.spelled

/-- The text of a legible program is read as that program. So no other legible program has the same
text, and a text that is read as the program is written in the same way again and again. -/
theorem parseText_text {program : Program} (legible : Program.Legible program) :
    parseText (Program.text program) = (program, []) ∧
      (∀ other, Program.Legible other → Program.text other = Program.text program →
        other = program) ∧
      ∀ source, (parseText source).1 = program →
        Program.text (parseText (Program.text (parseText source).1)).1 =
          Program.text (parseText source).1 := by
  rcases legible.exists_written with ⟨tokens, written⟩
  have read := written.parseText
  refine ⟨read, ?_, ?_⟩
  · intro other otherLegible same
    rcases otherLegible.exists_written with ⟨otherTokens, otherWritten⟩
    have otherRead := otherWritten.parseText
    rw [same, read] at otherRead
    exact congrArg Prod.fst otherRead.symm
  · intro source reads
    rw [reads, read]

/-- A prefix in front of a call, and an operation that is called. -/
theorem parseText_text_of_calls :
    parseText "let f = (!g(1, \"a b\"));(f + (-2))(true)(f)" =
      ([.letBe "f" (.unary .not (.call (.ident "g") [.int 1, .str "a b"])),
        .expr (.call (.call (.binary (.ident "f") .add (.unary .negate (.int 2))) [.bool true])
          [.ident "f"])], []) := by
  have isName : IsName "f" ∧ IsName "g" := by
    refine ⟨⟨by simp, List.all_eq_true.mp (by decide), ?_⟩,
      ⟨by simp, List.all_eq_true.mp (by decide), ?_⟩⟩
    all_goals
      intro keyword
      cases keyword <;> decide
  have arguments : ∀ arg ∈ [Expr.int 1, .str "a b"], arg.Legible := by
    simp only [List.forall_mem_cons]
    exact ⟨.int (by decide) (by decide), .str (by decide), List.forall_mem_nil _⟩
  have operation : (Expr.binary (.ident "f") .add (.unary .negate (.int 2))).Legible :=
    .binary (.ident isName.1) .add (.unary .negate (.int (by decide) (by decide)))
  have calls : (Expr.call (.call (.binary (.ident "f") .add (.unary .negate (.int 2)))
      [.bool true]) [.ident "f"]).Legible := by
    refine .call (.call operation ?_) ?_
    · exact List.forall_mem_singleton.mpr (.bool true)
    · exact List.forall_mem_singleton.mpr (.ident isName.1)
  exact (parseText_text (.letBe isName.1 (.unary .not (.call (.ident isName.2) arguments))
    (.expr calls))).1

end Monkey
