import Monkey.Proofs.Printing.RoundTrip
import Monkey.Proofs.Session.Arithmetic
import Monkey.Proofs.Session.Quotes

/-!
# What a session shows reads back

An integer, a truth value, a string or a function without branches and functions in it is shown as a
text that is a program for the same value. So a session that is given what any session has shown
shows it once more.
-/

namespace Monkey

/-! ### Trees without branches and functions -/

mutual

/-- Whether an expression has neither a branch nor a function in it. -/
def Expr.isStraight : Expr → Bool
  | .ident _ | .int _ | .bool _ | .str _ => true
  | .unary _ operand => operand.isStraight
  | .binary left _ right => left.isStraight && right.isStraight
  | .ifThen _ _ | .ifElse _ _ _ | .fn _ _ => false
  | .call callee args => callee.isStraight && Expr.allStraight args

def Expr.allStraight : List Expr → Bool
  | [] => true
  | expr :: rest => expr.isStraight && Expr.allStraight rest

end

/-- Bindings and returns and at most one more expression behind them, with neither a branch nor a
function in any of them. -/
def Program.isStraight : Program → Bool
  | [] => true
  | [.expr value] => value.isStraight
  | .letBe _ value :: rest | .ret value :: rest => value.isStraight && Program.isStraight rest
  | _ => false

mutual

theorem Expr.Spellable.legible :
    ∀ {expr : Expr}, expr.Spellable → expr.isStraight = true → expr.Legible
  | .ident _, spellable, _ => .ident spellable
  | .int _, spellable, _ => .int spellable.1 spellable.2
  | .bool value, _, _ => .bool value
  | .str _, spellable, _ => .str spellable
  | .unary op _, spellable, straight => .unary op (Expr.Spellable.legible spellable straight)
  | .binary _ op _, spellable, straight =>
      have straight := Bool.and_eq_true_iff.mp straight
      .binary (Expr.Spellable.legible spellable.1 straight.1) op
        (Expr.Spellable.legible spellable.2 straight.2)
  | .call _ _, spellable, straight =>
      have straight := Bool.and_eq_true_iff.mp straight
      .call (Expr.Spellable.legible spellable.1 straight.1)
        (Expr.AllSpellable.legible spellable.2 straight.2)
termination_by structural expr => expr

theorem Expr.AllSpellable.legible : ∀ {args : List Expr}, Expr.AllSpellable args →
    Expr.allStraight args = true → ∀ arg ∈ args, arg.Legible
  | [], _, _ => List.forall_mem_nil _
  | _ :: _, spellable, straight =>
      have straight := Bool.and_eq_true_iff.mp straight
      List.forall_mem_cons.mpr ⟨Expr.Spellable.legible spellable.1 straight.1,
        Expr.AllSpellable.legible spellable.2 straight.2⟩
termination_by structural args => args

end

theorem Program.Spellable.legible {program : Program} (spellable : Program.Spellable program)
    (straight : Program.isStraight program = true) : Program.Legible program := by
  fun_induction Program.isStraight program with
  | case1 => exact .nil
  | case2 value => exact .expr (Expr.Spellable.legible spellable.1 straight)
  | case3 name value rest ih =>
      have straight := Bool.and_eq_true_iff.mp straight
      exact .letBe spellable.1.1 (Expr.Spellable.legible spellable.1.2 straight.1)
        (ih spellable.2 straight.2)
  | case4 value rest ih =>
      have straight := Bool.and_eq_true_iff.mp straight
      exact .ret (Expr.Spellable.legible spellable.1 straight.1) (ih spellable.2 straight.2)
  | case5 => cases straight

/-! ### The text of a function -/

theorem ParamsSpelled.cons {name comma : Token} (nameKind : name.kind = .ident)
    (commaKind : comma.kind = .symbol .comma) {tokens : List Token} {params : List String}
    (spelled : ParamsSpelled tokens params) (nonempty : params ≠ []) :
    ParamsSpelled (name :: comma :: tokens) (name.literal :: params) := by
  induction spelled with
  | none => exact absurd rfl nonempty
  | first otherKind =>
      exact .later (.first nameKind) (List.cons_ne_nil _ _) commaKind otherKind
  | later _ earlierNonempty otherComma otherKind ih =>
      exact .later (ih earlierNonempty) (List.cons_ne_nil _ _) otherComma otherKind

/-- The text of the parameters has these tokens, and they spell them. -/
structure ParamsWritten (params : List String) (tokens : List Token) : Prop where
  spelled : ParamsSpelled tokens params
  cutAs : ∀ {rest : List Char} {later : List Token}, Stops rest → CutAs rest later →
    CutAs ((commaSeparated params).toList ++ rest) (tokens ++ later)

theorem exists_paramsWritten {params : List String} (areNames : ∀ param ∈ params, IsName param) :
    ∃ tokens, ParamsWritten params tokens := by
  induction params with
  | nil => exact ⟨[], .none, fun _ cutAs => cutAs⟩
  | cons param others ih =>
      rcases List.forall_mem_cons.mp areNames with ⟨isName, othersAreNames⟩
      cases others with
      | nil =>
          refine ⟨[⟨.ident, param, .origin⟩], .first rfl, ?_⟩
          intro rest later stops cutAs
          exact .name isName stops cutAs
      | cons next others =>
          rcases ih othersAreNames with ⟨tokens, written⟩
          refine ⟨⟨.ident, param, .origin⟩ :: Symbol.comma.token :: tokens, ?_, ?_⟩
          · exact written.spelled.cons rfl rfl (List.cons_ne_nil _ _)
          · intro rest later stops cutAs
            have text : (commaSeparated (param :: next :: others)).toList ++ rest =
                param.toList ++ (Symbol.comma.text.toList ++
                  ' ' :: ((commaSeparated (next :: others)).toList ++ rest)) := by
              simp [commaSeparated, Symbol.text]
            have comma := CutAs.symbol .comma (.inl rfl) (written.cutAs stops cutAs).space
            rw [text, List.cons_append, List.cons_append]
            exact .name isName (.cons (by decide) (by decide) _) comma

/-- A function is shown as a function literal. -/
theorem parseText_fn {params : List String} {body : Program}
    (areNames : ∀ param ∈ params, IsName param) (legible : Program.Legible body) (identity : Nat)
    (env : Env) :
    parseText (Value.fn identity params body env).code = ([.expr (.fn params body)], []) := by
  rcases exists_paramsWritten areNames with ⟨paramTokens, paramsWritten⟩
  rcases legible.exists_written with ⟨bodyTokens, bodyWritten⟩
  rcases bodyWritten.spelled with ⟨bare, bodySpelled⟩
  have text : (Value.fn identity params body env).code.toList =
      Keyword.fnWord.text.toList ++ (Symbol.leftParen.text.toList ++
        ((commaSeparated params).toList ++ (Symbol.rightParen.text.toList ++
          ' ' :: (Symbol.leftBrace.text.toList ++ '\n' :: ((Program.text body).toList ++
            '\n' :: (Symbol.rightBrace.text.toList ++ [])))))) := by
    change ("fn(" ++ commaSeparated params ++ ") \x7b\n" ++ Program.text body ++
      "\n\x7d").toList = _
    simp only [String.toList_append, List.append_assoc]
    rfl
  -- The text is cut from its end.
  have closing := (CutAs.symbol .rightBrace (.inl rfl) .nil).lineFeed
  have inner := (bodyWritten.cutAs (.cons (by decide) (by decide) _) closing).lineFeed
  have opening := (CutAs.symbol .leftBrace (.inl rfl) inner).space
  have closed := CutAs.symbol .rightParen (.inl rfl) opening
  have named := paramsWritten.cutAs (Symbol.rightParen.stops _) closed
  have opened := CutAs.symbol .leftParen (.inl rfl) named
  have cutAs := CutAs.keyword .fnWord (Symbol.leftParen.stops _) opened
  have spelled : Expr.Spelled atomPower
      (Keyword.fnWord.token :: Symbol.leftParen.token :: (paramTokens ++ Symbol.rightParen.token ::
        (Symbol.leftBrace.token :: (bodyTokens ++ [Symbol.rightBrace.token]))))
      (.fn params body) :=
    .fn rfl rfl paramsWritten.spelled rfl (.mk rfl bodySpelled rfl)
  have whole := Stmt.Spelled.expr (spelled.mono (by decide)) .absent
  rw [List.append_nil] at whole
  rw [← text] at cutAs
  rw [parseText_eq_iff, unplaced_tokensBeforeEnd_of_cutAs cutAs]
  exact ⟨true, whole.alone⟩

/-! ### Values that are shown as programs -/

/-- The values that are shown as a program for the same value: integers, except for the least one,
truth values, strings, and functions that have neither a branch nor a function in them. -/
inductive Value.ReadsBack : Value → Prop where
  | int {value : Int} (above : minInteger < value) (fits : value ≤ maxInteger) :
      ReadsBack (.int value)
  | bool (value : Bool) : ReadsBack (.bool value)
  | str (identity : Nat) (text : String) : ReadsBack (.str identity text)
  | fn (identity : Nat) (params : List String) {body : Program} (env : Env)
      (straight : Program.isStraight body = true) : ReadsBack (.fn identity params body env)

theorem Expr.Legible.parseText {expr : Expr} (legible : expr.Legible) :
    parseText expr.text = ([.expr expr], []) := by
  rcases legible.exists_written with ⟨tokens, written⟩
  rw [← Program.Written.single written |>.parseText]
  simp [Program.text, Stmt.text]

/-- A negative integer is shown as the negation of one that is not. -/
theorem parseText_negative {size : Nat} (fits : (size : Int) ≤ maxInteger) (positive : 0 < size) :
    parseText (writeInteger (-size)) = ([.expr (.unary .negate (.int size))], []) := by
  have text : (writeInteger (-size)).toList =
      Symbol.minus.text.toList ++ (Nat.toDigits 10 size ++ []) := by
    rcases size with _ | size
    · omega
    · change (Int.repr (Int.negSucc size)).toList = _
      simp [Int.repr, Symbol.text, Nat.repr]
  have numeral := CutAs.numeral (@Nat.toDigits_ne_nil size 10) isDigit_of_mem_toDigits .nil .nil
  have cutAs := CutAs.symbol .minus (.inl rfl) numeral
  rw [← text] at cutAs
  have operand := (Expr.Written.int fits).spelled.mono (show unaryPower ≤ callPower by decide)
  have signSpelled : UnaryOp.negate.Spelled Symbol.minus.token.kind := .negate
  have signed := Expr.Spelled.unary signSpelled operand
  have whole := Stmt.Spelled.expr (signed.mono (by decide)) .absent
  rw [List.append_nil] at whole
  rw [parseText_eq_iff, unplaced_tokensBeforeEnd_of_cutAs cutAs]
  exact ⟨true, whole.alone⟩

theorem parseText_integer {value : Int} (above : minInteger < value) (fits : value ≤ maxInteger) :
    ∃ arithmetic : Arithmetic, parseText (writeInteger value) = ([.expr arithmetic.tree], []) ∧
      arithmetic.outcome = .int value := by
  by_cases nonnegative : 0 ≤ value
  · rcases Int.eq_ofNat_of_zero_le nonnegative with ⟨size, rfl⟩
    exact ⟨.literal size, (Expr.Legible.int nonnegative fits).parseText, rfl⟩
  · obtain ⟨size, rfl⟩ : ∃ size : Nat, value = -size := ⟨value.natAbs, by omega⟩
    have inside : inRange (-(size : Int)) = true := inRange_iff.mpr ⟨Int.le_of_lt above, fits⟩
    have sizeFits : (size : Int) ≤ maxInteger := by
      unfold minInteger at above
      unfold maxInteger
      omega
    refine ⟨.negation (.literal size), parseText_negative sizeFits (by omega), ?_⟩
    apply Arithmetic.outcome_of_fine
    apply List.find?_eq_none.mpr
    intro operation member
    rw [List.mem_singleton.mp member]
    simp [Operation.fails, Operation.dividesByZero, Operation.result, Arithmetic.value, inside]

theorem Value.ReadsBack.exists_program {value : Value} (readsBack : value.ReadsBack)
    (spellable : value.Spellable) :
    ∃ program, parseText value.code = (program, []) ∧
      ∀ fuel env store, ∃ again later,
        Program.eval fuel env program store = some (again, later) ∧ again.code = value.code := by
  cases readsBack with
  | int above fits =>
      rcases parseText_integer above fits with ⟨arithmetic, reads, outcome⟩
      refine ⟨_, reads, ?_⟩
      intro fuel env store
      rcases arithmetic.eval_program fuel env store with ⟨later, ends⟩
      exact ⟨_, later, ends, by rw [outcome]⟩
  | bool value => exact ⟨_, (Expr.Legible.bool value).parseText, fun _ _ _ => ⟨_, _, rfl, rfl⟩⟩
  | str identity text =>
      exact ⟨_, (Expr.Legible.str spellable).parseText, fun _ _ _ => ⟨_, _, rfl, rfl⟩⟩
  | fn identity params env straight =>
      have reads := parseText_fn spellable.1 (spellable.2.legible straight) identity env
      exact ⟨_, reads, fun _ _ _ => ⟨_, _, rfl, rfl⟩⟩

/-- What a session shows for a line is read by every session without an error, and shown by it once
more, if it is an integer other than the least one, a truth value, a string, or a function that has
neither a branch nor a function in it. -/
theorem Session.runLine_echo {session : Session} {entries : List (String × String)}
    (runs : Session.start.Runs entries session) {line : String} {program : Program}
    (reads : parseText line = (program, [])) {fuel : Nat} {value : Value} {later : Store}
    (ends : program.eval fuel session.env session.store = some (value, later))
    (readsBack : value.ReadsBack) :
    session.runLine fuel line = some (value.code, { session with store := later }) ∧
      (parseText value.code).2 = [] ∧
      ∀ (other : Session) (limit : Nat),
        ∃ last, other.runLine limit value.code = some (value.code, last) := by
  have spellable : value.Spellable :=
    (Program.spellable_of_eval (spellable_of_parseText reads)
      (runs.spellable (Store.binds_start _)) ends).2
  rcases readsBack.exists_program spellable with ⟨echo, echoReads, echoEnds⟩
  refine ⟨runLine_of_ends reads ends, by rw [echoReads], ?_⟩
  intro other limit
  rcases echoEnds limit other.env other.store with ⟨again, last, againEnds, sameCode⟩
  refine ⟨{ other with store := last }, ?_⟩
  rw [runLine_of_ends echoReads againEnds, sameCode]

/-- A function with two parameters, a binding and a return is shown by one session and read by
another one. -/
theorem Session.runLine_echo_function :
    ∃ last, Session.start.runLine 0 "fn(a, b) \x7b\nlet c = (a + (-b));return c;\n\x7d" =
      some ("fn(a, b) \x7b\nlet c = (a + (-b));return c;\n\x7d", last) := by
  have reads : parseText "fn(a,b) \x7b let c = a + -b; return c \x7d" =
      ([.expr (.fn ["a", "b"] [.letBe "c" (.binary (.ident "a") .add
        (.unary .negate (.ident "b"))), .ret (.ident "c")])], []) := by
    decide +kernel
  have ends : Program.eval 0 Session.start.env [.expr (.fn ["a", "b"] [.letBe "c" (.binary
      (.ident "a") .add (.unary .negate (.ident "b"))), .ret (.ident "c")])]
        Session.start.store = some (.fn 0 ["a", "b"] [.letBe "c" (.binary (.ident "a") .add
          (.unary .negate (.ident "b"))), .ret (.ident "c")] 0, _) := rfl
  have echo := (Session.runLine_echo .nil reads ends (.fn 0 _ 0 rfl)).2.2 Session.start 0
  have code : (Value.fn 0 ["a", "b"] [.letBe "c" (.binary (.ident "a") .add
      (.unary .negate (.ident "b"))), .ret (.ident "c")] 0).code =
        "fn(a, b) \x7b\nlet c = (a + (-b));return c;\n\x7d" := by
    decide +kernel
  rwa [code] at echo

end Monkey
