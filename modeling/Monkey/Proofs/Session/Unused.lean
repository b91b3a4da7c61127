import Monkey.Proofs.Printing.RoundTrip
import Monkey.Proofs.Reading.Names
import Monkey.Proofs.Session.Deletion

/-!
# Names that no line uses

A line that binds a name to a literal can be put in anywhere in a session whose other lines do not have
this name. All of them put out what they put out without it. The two sessions then differ in what one
name is bound to, and in the numbers of objects, for the literal may have made one. Nobody asks for
the name, be it in a line or in the body of a function that a line has made.
-/

namespace Monkey

/-! ### All names but one -/

/-- What may differ is what one name is bound to. Functions have the same bodies, in which that name is
not looked up. -/
def Likeness.apart (name : String) : Likeness where
  names key := key ≠ name
  bodies body other := body = other ∧ name ∉ Program.lookups body
  text same := by rw [same.1]

theorem Likeness.reflexive_apart (name : String) : (Likeness.apart name).Reflexive :=
  fun _ seen => ⟨rfl, fun member => seen name member rfl⟩

theorem Likeness.covered_apart {name : String} {program : Program}
    (unused : name ∉ Program.lookups program) : Program.Covered (.apart name) program := by
  refine Program.covered (reflexive_apart name) program ?_
  rintro _ member rfl
  exact unused member

theorem Likeness.sound_apart (name : String) : (Likeness.apart name).Sound := by
  rintro call otherCall calls body _ ⟨rfl, unused⟩ pairing machine other alike
  exact (Program.matches_self (covered_apart unused)).agree calls .null alike

/-! ### Binding a literal -/

/-- The text is a numeral in range, a truth value, or a text in quotes. -/
inductive IsLiteral : String → Prop where
  | int {digits : List Char} (nonempty : digits ≠ [])
      (decimal : ∀ digit ∈ digits, digit.isDigit = true)
      (fits : (Nat.ofDigitChars 10 digits 0 : Int) ≤ maxInteger) : IsLiteral (String.ofList digits)
  | bool (value : Bool) : IsLiteral (writeBool value)
  | str {text : String} (noQuote : '"' ∉ text.toList) : IsLiteral (quoted text)

/-- Evaluating the expression makes at most one object, and does nothing else. -/
inductive Expr.Constant : Expr → Prop where
  | int (value : Int) : Expr.Constant (.int value)
  | bool (value : Bool) : Expr.Constant (.bool value)
  | str (text : String) : Expr.Constant (.str text)

/-- The line that binds a name to a literal. -/
def bindingLine (name literal : String) : String := "let " ++ name ++ " = " ++ literal ++ ";"

theorem Expr.Constant.eval {expr : Expr} (constant : expr.Constant)
    (call : Value → List Value → Run) (machine : Machine) :
    ∃ value fresh, value.isCarrier = false ∧ machine.store.fresh ≤ fresh ∧
      expr.eval call machine = some (value, ⟨machine.env, { machine.store with fresh := fresh }⟩) := by
  cases constant with
  | int value => exact ⟨.int value, _, rfl, Nat.le_refl _, rfl⟩
  | bool value => exact ⟨.bool value, _, rfl, Nat.le_refl _, rfl⟩
  | str text => exact ⟨.str machine.store.fresh text, _, rfl, Nat.le_succ _, rfl⟩

theorem parseText_bindingLine {name literal : String} {value : Expr} {tokens : List Token}
    (isName : IsName name) (spelled : Expr.Spelled loosestPower tokens value)
    (cutAs : ∀ {rest : List Char} {later : List Token}, Stops rest → CutAs rest later →
      CutAs (literal.toList ++ rest) (tokens ++ later)) :
    parseText (bindingLine name literal) = ([.letBe name value], []) := by
  have whole := CutAs.letBe isName cutAs .nil
  rw [List.append_nil, List.append_nil] at whole
  rw [parseText_eq_iff, bindingLine, unplaced_tokensBeforeEnd_of_cutAs whole]
  exact ⟨false, (Stmt.Spelled.letBe rfl rfl rfl spelled (.present rfl)).alone⟩

theorem IsLiteral.parseText {name literal : String} (isName : IsName name)
    (isLiteral : IsLiteral literal) :
    ∃ value : Expr, value.Constant ∧
      Monkey.parseText (bindingLine name literal) = ([.letBe name value], []) := by
  cases isLiteral with
  | @int digits nonempty decimal fits =>
      have spelled : IntegerSpelled digits (Nat.ofDigitChars 10 digits 0) :=
        @IntegerSpelled.mk [] _ _ nonempty decimal (.inl ⟨.inl rfl, rfl⟩)
          ⟨by omega, fits⟩
      have atom : Expr.Spelled atomPower [⟨.int, String.ofList digits, .origin⟩]
          (.int (Nat.ofDigitChars 10 digits 0)) := .int rfl (by rwa [String.toList_ofList])
      refine ⟨_, .int _,
        parseText_bindingLine isName (atom.mono (by decide)) fun stops cutAs => ?_⟩
      rw [String.toList_ofList]
      exact .numeral nonempty decimal stops cutAs
  | bool value =>
      rcases Expr.Written.bool value with ⟨tokens, written⟩
      exact ⟨_, .bool value, parseText_bindingLine isName (written.spelled.mono (by decide))
        written.cutAs⟩
  | @str text noQuote =>
      have written := Expr.Written.str noQuote
      exact ⟨_, .str text, parseText_bindingLine isName (written.spelled.mono (by decide))
        written.cutAs⟩

namespace Session

theorem runLine_bindingLine {name literal : String} (isName : IsName name)
    (isLiteral : IsLiteral literal) (session : Session) :
    ∃ output later, session.runLine 0 (bindingLine name literal) = some (output, later) ∧
      later.env = session.env ∧ session.store.IntactFor (Likeness.apart name).names later.store := by
  rcases isLiteral.parseText isName with ⟨value, constant, reads⟩
  rcases constant.eval (Value.apply 0) ⟨session.env, session.store⟩ with
    ⟨held, fresh, plain, grows, ends⟩
  have issued : session.store.IntactFor (Likeness.apart name).names
      { session.store with fresh := fresh } :=
    ⟨⟨grows, Nat.le_refl _⟩, fun found => ⟨_, found, rfl, fun _ _ => rfl⟩⟩
  have evaluated : Program.eval 0 session.env [.letBe name value] session.store =
      some (.null, (Store.set { session.store with fresh := fresh } session.env name held).2) := by
    have bound : (Stmt.letBe name value).eval (Value.apply 0) ⟨session.env, session.store⟩ =
        some (.null, Machine.bind ⟨session.env, { session.store with fresh := fresh }⟩ name held) :=
      Run.thenPlain_of_plain ends plain
    exact Program.eval_eq_some_iff.mpr ⟨_, _, Run.thenPlain_of_plain bound rfl, rfl, rfl⟩
  exact ⟨_, _, runLine_of_ends reads evaluated, rfl,
    issued.trans (.set session.env (not_not_intro rfl) held)⟩

theorem Runs.alike {likeness : Likeness} (sound : likeness.Sound) {pairing : Pairing}
    {session other last : Session} {entries : List (String × String)}
    (covered : ∀ entry ∈ entries, (parseText entry.1).2 = [] →
      Program.Covered likeness (parseText entry.1).1)
    (alike : session.Alike likeness pairing other) (runs : session.Runs entries last) :
    ∃ larger otherLast, other.Runs entries otherLast ∧ last.Alike likeness larger otherLast := by
  induction runs generalizing other pairing with
  | nil => exact ⟨pairing, other, .nil, alike⟩
  | cons ran _ ih =>
      rcases List.forall_mem_cons.mp covered with ⟨first, rest⟩
      rcases runLine_alike sound first alike ran with ⟨larger, otherLater, otherRan, laterAlike⟩
      rcases ih rest laterAlike with ⟨largest, otherLast, otherRuns, lastAlike⟩
      exact ⟨largest, otherLast, .cons otherRan otherRuns, lastAlike⟩

/-- Where no name is bound there is nothing to tell apart. -/
theorem alike_start (likeness : Likeness) : ∃ pairing, start.Alike likeness pairing start := by
  let nothing : Pairing := ⟨fun _ _ => False, fun _ _ => False⟩
  have none : Numbering 0 0 fun _ _ => False := ⟨False.elim, nofun, nofun⟩
  have empty : Store.empty.Alike likeness nothing Store.empty := ⟨none, none, False.elim⟩
  exact ⟨nothing.withEnv 0 0, .inr ⟨rfl, rfl⟩, empty.openScope .nil⟩

theorem Alike.intactFor {likeness : Likeness} {pairing : Pairing}
    {session other later otherLater : Session} (alike : session.Alike likeness pairing other)
    (sameEnv : later.env = session.env) (otherSameEnv : otherLater.env = other.env)
    (intact : session.store.IntactFor likeness.names later.store)
    (otherIntact : other.store.IntactFor likeness.names otherLater.store) :
    later.Alike likeness pairing otherLater := by
  refine ⟨?_, alike.store.intactFor intact otherIntact⟩
  change pairing.envs later.env otherLater.env
  rw [sameEnv, otherSameEnv]
  exact alike.env

/-- A line that binds a name to a literal can be put in anywhere in a session in which no other line has
that name, and can be taken out again. It comes to an end, and the output of all other lines is the
same with it and without it. -/
theorem runs_iff_runs_with_binding {name literal : String} (isName : IsName name)
    (isLiteral : IsLiteral literal) {before after : List (String × String)}
    (unused : ∀ entry ∈ before ++ after, Unnamed name (tokenize entry.1)) :
    (∃ last, start.Runs (before ++ after) last) ↔
      ∃ output last, start.Runs (before ++ (bindingLine name literal, output) :: after) last := by
  have sound := Likeness.sound_apart name
  have covered : ∀ entry ∈ before ++ after, (parseText entry.1).2 = [] →
      Program.Covered (.apart name) (parseText entry.1).1 := by
    intro entry member reads
    have program : parseText entry.1 = ((parseText entry.1).1, []) := by rw [← reads]
    exact Likeness.covered_apart (not_mem_lookups_of_parseText program (unused entry member))
  rw [List.forall_mem_append] at covered
  -- What the lines in front have made is like itself, since none of their functions asks for the name.
  have middleAlike : ∀ {middle : Session}, start.Runs before middle →
      ∃ pairing, middle.Alike (.apart name) pairing middle := by
    intro middle runs
    rcases alike_start (.apart name) with ⟨_, startAlike⟩
    rcases runs.alike sound covered.1 startAlike with ⟨pairing, other, otherRuns, alike⟩
    obtain rfl := (runs.unique otherRuns rfl).2
    exact ⟨pairing, alike⟩
  constructor
  · rintro ⟨last, runs⟩
    rcases runs.exists_middle with ⟨middle, firstRuns, laterRuns⟩
    rcases middleAlike firstRuns with ⟨pairing, alike⟩
    rcases runLine_bindingLine isName isLiteral middle with ⟨output, bound, binds, sameEnv, intact⟩
    have boundAlike := alike.intactFor rfl sameEnv (.refl _) intact
    rcases laterRuns.alike sound covered.2 boundAlike with ⟨-, otherLast, otherRuns, -⟩
    exact ⟨output, otherLast, firstRuns.append (.cons binds otherRuns)⟩
  · rintro ⟨output, last, runs⟩
    rcases runs.exists_middle with ⟨middle, firstRuns, restRuns⟩
    rcases middleAlike firstRuns with ⟨pairing, alike⟩
    rcases runLine_bindingLine isName isLiteral middle with ⟨_, bound, binds, sameEnv, intact⟩
    cases restRuns with
    | cons ran laterRuns =>
        obtain rfl := (runLine_unique binds ran).2
        have boundAlike := alike.intactFor sameEnv rfl intact (.refl _)
        rcases laterRuns.alike sound covered.2 boundAlike with ⟨-, otherLast, otherRuns, -⟩
        exact ⟨otherLast, firstRuns.append otherRuns⟩

/-- The name of a builtin function is bound between two lines, to a string of its own. -/
theorem runs_with_binding_of_builtin_name :
    ∃ output last, start.Runs
      [("let s = \"a\";", "null"), ("let len = \"a\";", output), ("s == s", "true")] last := by
  have binds : parseText "let s = \"a\";" = ([.letBe "s" (.str "a")], []) := by decide +kernel
  have compares : parseText "s == s" = ([.expr (.binary (.ident "s") .equal (.ident "s"))], []) := by
    decide +kernel
  have isName : IsName "len" := by
    refine ⟨by simp, List.all_eq_true.mp (by decide), fun keyword => ?_⟩
    cases keyword <;> decide
  have isLiteral : IsLiteral (quoted "a") := .str (by decide)
  have unused : ∀ entry ∈ [("let s = \"a\";", "null")] ++ [("s == s", "true")],
      Unnamed "len" (tokenize entry.1) := by
    unfold Unnamed
    decide +kernel
  have line : bindingLine "len" (quoted "a") = "let len = \"a\";" := by decide +kernel
  rw [← line]
  exact (runs_iff_runs_with_binding isName isLiteral unused).mp
    ⟨_, .cons (@runLine_of_ends _ 0 _ _ binds .null _ rfl)
      (.cons (@runLine_of_ends _ 0 _ _ compares (.bool true) _ rfl) .nil)⟩

end Session

end Monkey
