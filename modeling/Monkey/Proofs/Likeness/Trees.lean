import Monkey.Proofs.Evaluation.Lookups
import Monkey.Proofs.Evaluation.Sequence
import Monkey.Proofs.Likeness.Evaluation

/-!
# Trees that match

A program that is evaluated on two machines that are alike ends on both or on none, and then in the same
way. It need not even be the same program: functions may have bodies that can stand for each other, and
what one program has in a block may follow each other without it in the other one.
-/

namespace Monkey

/-! ### Matching -/

mutual

/-- Two expressions that can stand for each other: the names that are looked up in them have to be
bound alike, and their functions have bodies that can stand for each other. -/
inductive Expr.Matches (likeness : Likeness) : Expr → Expr → Prop where
  | ident {name : String} (seen : likeness.names name) :
      Expr.Matches likeness (.ident name) (.ident name)
  | int (value : Int) : Expr.Matches likeness (.int value) (.int value)
  | bool (value : Bool) : Expr.Matches likeness (.bool value) (.bool value)
  | str (text : String) : Expr.Matches likeness (.str text) (.str text)
  | unary (op : UnaryOp) {operand other : Expr} (operands : Expr.Matches likeness operand other) :
      Expr.Matches likeness (.unary op operand) (.unary op other)
  | binary (op : BinaryOp) {left otherLeft right otherRight : Expr}
      (lefts : Expr.Matches likeness left otherLeft)
      (rights : Expr.Matches likeness right otherRight) :
      Expr.Matches likeness (.binary left op right) (.binary otherLeft op otherRight)
  | ifThen {condition otherCondition : Expr} {consequence other : List Stmt}
      (conditions : Expr.Matches likeness condition otherCondition)
      (consequences : Program.Matches likeness consequence other) :
      Expr.Matches likeness (.ifThen condition consequence) (.ifThen otherCondition other)
  | ifElse {condition otherCondition : Expr}
      {consequence otherConsequence alternative otherAlternative : List Stmt}
      (conditions : Expr.Matches likeness condition otherCondition)
      (consequences : Program.Matches likeness consequence otherConsequence)
      (alternatives : Program.Matches likeness alternative otherAlternative) :
      Expr.Matches likeness (.ifElse condition consequence alternative)
        (.ifElse otherCondition otherConsequence otherAlternative)
  | fn (params : List String) {body other : List Stmt} (bodies : likeness.bodies body other) :
      Expr.Matches likeness (.fn params body) (.fn params other)
  | call {callee otherCallee : Expr} {args otherArgs : List Expr}
      (callees : Expr.Matches likeness callee otherCallee)
      (arguments : Expr.AllMatch likeness args otherArgs) :
      Expr.Matches likeness (.call callee args) (.call otherCallee otherArgs)

/-- The same for as many expressions on both sides. -/
inductive Expr.AllMatch (likeness : Likeness) : List Expr → List Expr → Prop where
  | nil : Expr.AllMatch likeness [] []
  | cons {expr other : Expr} {rest otherRest : List Expr} (first : Expr.Matches likeness expr other)
      (others : Expr.AllMatch likeness rest otherRest) :
      Expr.AllMatch likeness (expr :: rest) (other :: otherRest)

/-- The same for statements. -/
inductive Stmt.Matches (likeness : Likeness) : Stmt → Stmt → Prop where
  | letBe (name : String) {value other : Expr} (values : Expr.Matches likeness value other) :
      Stmt.Matches likeness (.letBe name value) (.letBe name other)
  | ret {value other : Expr} (values : Expr.Matches likeness value other) :
      Stmt.Matches likeness (.ret value) (.ret other)
  | expr {value other : Expr} (values : Expr.Matches likeness value other) :
      Stmt.Matches likeness (.expr value) (.expr other)
  | block {body other : List Stmt} (bodies : Program.Matches likeness body other) :
      Stmt.Matches likeness (.block body) (.block other)

/-- The same for programs. The statements of a block may have come out of it. -/
inductive Program.Matches (likeness : Likeness) : List Stmt → List Stmt → Prop where
  | nil : Program.Matches likeness [] []
  | cons {stmt other : Stmt} {rest otherRest : List Stmt} (first : Stmt.Matches likeness stmt other)
      (others : Program.Matches likeness rest otherRest) :
      Program.Matches likeness (stmt :: rest) (other :: otherRest)
  | splice {body other rest otherRest : List Stmt} (bodies : Program.Matches likeness body other)
      (nonempty : other ≠ []) (others : Program.Matches likeness rest otherRest) :
      Program.Matches likeness (.block body :: rest) (other ++ otherRest)

end

section

variable {likeness : Likeness} {call otherCall : Value → List Value → Run}

-- Each part of a tree may extend the pairing. The values of the parts before it are carried over to
-- the larger pairing, in which the operation then takes place.
mutual

theorem Expr.Matches.agree (calls : CallsAgree likeness call otherCall) :
    ∀ {expr otherExpr : Expr}, expr.Matches likeness otherExpr →
      ∀ ⦃pairing : Pairing⦄ ⦃machine other : Machine⦄, machine.Alike likeness pairing other →
        Agree likeness pairing machine other (expr.eval call) (otherExpr.eval otherCall)
  | _, _, .ident seen, _, _, _, alike => .resolve alike seen
  | _, _, .int value, _, _, _, alike => .value alike (.int value)
  | _, _, .bool value, _, _, _, alike => .value alike (.bool value)
  | _, _, .str text, _, _, _, alike =>
      .answer alike.store fun _ _ _ paired => .ok (.str text paired)
  | _, _, .unary op operands, _, _, _, alike =>
      .thenPlain alike (operands.agree calls alike) fun _ _ _ _ _ _ valueAlike later =>
        .answer later.store fun _ within _ _ => op.apply_alike (valueAlike.mono within)
  | _, _, .binary op lefts rights, _, _, _, alike =>
      .thenPlain alike (lefts.agree calls alike) fun _ _ _ _ _ _ leftAlike afterLeft =>
        .thenPlain afterLeft (rights.agree calls afterLeft)
          fun _ _ _ _ _ within rightAlike afterRight =>
            .answer afterRight.store fun _ wider unique paired =>
              op.apply_alike unique paired (leftAlike.mono (within.trans wider))
                (rightAlike.mono wider)
  | _, _, .ifThen conditions consequences, _, _, _, alike => by
      refine .thenPlain alike (conditions.agree calls alike)
        fun _ value otherValue _ _ _ valueAlike later => ?_
      rw [valueAlike.isTruthy_eq]
      split
      · exact consequences.agree calls .null later
      · exact .value later .null
  | _, _, .ifElse conditions consequences alternatives, _, _, _, alike => by
      refine .thenPlain alike (conditions.agree calls alike)
        fun _ value otherValue _ _ _ valueAlike later => ?_
      rw [valueAlike.isTruthy_eq]
      split
      · exact consequences.agree calls .null later
      · exact alternatives.agree calls .null later
  | _, _, .fn params bodies, _, _, _, alike => .close alike params bodies
  | _, _, .call callees arguments, _, _, _, alike =>
      .thenPlain alike (callees.agree calls alike) fun _ _ _ _ _ _ calleeAlike later =>
        arguments.agree calls later fun _ _ _ _ _ within argsAlike afterArgs =>
          calls afterArgs.store (calleeAlike.mono within) argsAlike
termination_by structural _ _ trees => trees

theorem Expr.AllMatch.agree (calls : CallsAgree likeness call otherCall) :
    ∀ {args otherArgs : List Expr}, Expr.AllMatch likeness args otherArgs →
      ∀ ⦃pairing : Pairing⦄ ⦃machine other : Machine⦄ {next otherNext : List Value → Run},
        machine.Alike likeness pairing other →
        (∀ ⦃larger : Pairing⦄ ⦃values otherValues : List Value⦄ ⦃later otherLater : Machine⦄,
          pairing.Within larger → List.Forall₂ (Value.Alike likeness larger) values otherValues →
            later.Alike likeness larger otherLater →
              Agree likeness larger later otherLater (next values) (otherNext otherValues)) →
        Agree likeness pairing machine other (Expr.evalAll call next args)
          (Expr.evalAll otherCall otherNext otherArgs)
  | _, _, .nil, pairing, _, _, _, _, alike, nextAgree => nextAgree (.refl pairing) .nil alike
  | _, _, .cons first others, _, _, _, _, _, alike, nextAgree =>
      .thenPlain alike (first.agree calls alike) fun _ _ _ _ _ within argAlike later =>
        others.agree calls later fun _ _ _ _ _ wider restAlike afterRest =>
          nextAgree (within.trans wider) (.cons (argAlike.mono wider) restAlike) afterRest
termination_by structural _ _ trees => trees

theorem Stmt.Matches.agree (calls : CallsAgree likeness call otherCall) :
    ∀ {stmt otherStmt : Stmt}, stmt.Matches likeness otherStmt →
      ∀ ⦃pairing : Pairing⦄ ⦃machine other : Machine⦄, machine.Alike likeness pairing other →
        Agree likeness pairing machine other (stmt.eval call) (otherStmt.eval otherCall)
  | _, _, .letBe name values, _, _, _, alike =>
      .thenPlain alike (values.agree calls alike) fun _ _ _ _ _ _ valueAlike later =>
        .bind later name valueAlike
  | _, _, .ret values, _, _, _, alike =>
      .thenPlain alike (values.agree calls alike) fun _ _ _ _ _ _ valueAlike later =>
        .value later (.returned valueAlike)
  | _, _, .expr values, _, _, _, alike => values.agree calls alike
  | _, _, .block bodies, _, _, _, alike => bodies.agree calls .null alike
termination_by structural _ _ trees => trees

theorem Program.Matches.agree (calls : CallsAgree likeness call otherCall) :
    ∀ {stmts otherStmts : List Stmt}, Program.Matches likeness stmts otherStmts →
      ∀ ⦃pairing : Pairing⦄ ⦃machine other : Machine⦄ {last otherLast : Value},
        last.Alike likeness pairing otherLast → machine.Alike likeness pairing other →
          Agree likeness pairing machine other (Program.evalFrom call last stmts)
            (Program.evalFrom otherCall otherLast otherStmts)
  | _, _, .nil, _, _, _, _, _, lastAlike, alike => .value alike lastAlike
  | _, _, .cons first others, _, _, _, _, _, _, alike =>
      .thenPlain alike (first.agree calls alike) fun _ _ _ _ _ _ valueAlike later =>
        others.agree calls valueAlike later
  | _, _, .splice bodies nonempty others, _, _, _, _, _, _, alike => by
      rw [← Program.evalFrom_block nonempty]
      exact .thenPlain alike (bodies.agree calls .null alike) fun _ _ _ _ _ _ valueAlike later =>
        others.agree calls valueAlike later
termination_by structural _ _ trees => trees

end

end

variable {likeness : Likeness} {pairing : Pairing} {machine other : Machine}

/-- Matching programs, evaluated on machines that are alike, end both or none of them. They end with
like values, on machines that are alike again, and with the same lines in the trace. -/
theorem Program.Matches.eval (sound : likeness.Sound) {program otherProgram : Program}
    (trees : Program.Matches likeness program otherProgram)
    (alike : machine.Alike likeness pairing other) (fuel : Nat) :
    Option.Rel (fun ended otherEnded => ∃ larger,
        pairing.Within larger ∧ ended.1.Alike likeness larger otherEnded.1 ∧
          ended.2.Alike likeness larger otherEnded.2 ∧
            machine.store.SameTrace other.store ended.2 otherEnded.2)
      (program.eval fuel machine.env machine.store)
      (otherProgram.eval fuel other.env other.store) := by
  have agree := trees.agree (callsAgree_apply sound fuel) .null alike
  unfold Agree at agree
  simp only [Program.eval, Program.run]
  generalize Program.evalFrom (Value.apply fuel) .null program machine = ended,
    Program.evalFrom (Value.apply fuel) .null otherProgram other = otherEnded at agree
  rcases agree with ⟨larger, endAlike⟩ | _
  · exact .some ⟨larger, endAlike.within, endAlike.value.arrived, endAlike.store, endAlike.trace⟩
  · exact .none

/-! ### The same program twice -/

mutual

/-- The names that are looked up in an expression have to be bound alike, and its functions can stand
for themselves. -/
def Expr.Covered (likeness : Likeness) : Expr → Prop
  | .ident name => likeness.names name
  | .int _ | .bool _ | .str _ => True
  | .unary _ operand => operand.Covered likeness
  | .binary left _ right => left.Covered likeness ∧ right.Covered likeness
  | .ifThen condition consequence =>
    condition.Covered likeness ∧ Program.Covered likeness consequence
  | .ifElse condition consequence alternative =>
    condition.Covered likeness ∧ Program.Covered likeness consequence ∧
      Program.Covered likeness alternative
  | .fn _ body => likeness.bodies body body
  | .call callee args => callee.Covered likeness ∧ Expr.AllCovered likeness args

/-- The same for several expressions. -/
def Expr.AllCovered (likeness : Likeness) : List Expr → Prop
  | [] => True
  | expr :: rest => expr.Covered likeness ∧ Expr.AllCovered likeness rest

/-- The same for a statement. -/
def Stmt.Covered (likeness : Likeness) : Stmt → Prop
  | .letBe _ value | .ret value | .expr value => value.Covered likeness
  | .block body => Program.Covered likeness body

/-- The same for a program. -/
def Program.Covered (likeness : Likeness) : List Stmt → Prop
  | [] => True
  | stmt :: rest => stmt.Covered likeness ∧ Program.Covered likeness rest

end

mutual

theorem Expr.matches_self :
    ∀ {expr : Expr}, expr.Covered likeness → expr.Matches likeness expr
  | .ident _, covered => .ident covered
  | .int value, _ => .int value
  | .bool value, _ => .bool value
  | .str text, _ => .str text
  | .unary op _, covered => .unary op (Expr.matches_self covered)
  | .binary _ op _, covered =>
      .binary op (Expr.matches_self covered.1) (Expr.matches_self covered.2)
  | .ifThen _ _, covered =>
      .ifThen (Expr.matches_self covered.1) (Program.matches_self covered.2)
  | .ifElse _ _ _, covered =>
      .ifElse (Expr.matches_self covered.1) (Program.matches_self covered.2.1)
        (Program.matches_self covered.2.2)
  | .fn params _, covered => .fn params covered
  | .call _ _, covered => .call (Expr.matches_self covered.1) (Expr.allMatch_self covered.2)
termination_by structural expr => expr

theorem Expr.allMatch_self :
    ∀ {args : List Expr}, Expr.AllCovered likeness args → Expr.AllMatch likeness args args
  | [], _ => .nil
  | _ :: _, covered => .cons (Expr.matches_self covered.1) (Expr.allMatch_self covered.2)
termination_by structural args => args

theorem Stmt.matches_self :
    ∀ {stmt : Stmt}, stmt.Covered likeness → stmt.Matches likeness stmt
  | .letBe name _, covered => .letBe name (Expr.matches_self covered)
  | .ret _, covered => .ret (Expr.matches_self covered)
  | .expr _, covered => .expr (Expr.matches_self covered)
  | .block _, covered => .block (Program.matches_self covered)
termination_by structural stmt => stmt

theorem Program.matches_self :
    ∀ {stmts : List Stmt}, Program.Covered likeness stmts → Program.Matches likeness stmts stmts
  | [], _ => .nil
  | _ :: _, covered => .cons (Stmt.matches_self covered.1) (Program.matches_self covered.2)
termination_by structural stmts => stmts

end

/-- A program that is evaluated on a machine ends in the same way on one that is alike. -/
theorem Program.eval_alike (sound : likeness.Sound) {fuel : Nat} {program : Program}
    (covered : Program.Covered likeness program)
    (alike : machine.Alike likeness pairing other) {value : Value} {later : Store}
    (ends : program.eval fuel machine.env machine.store = some (value, later)) :
    ∃ larger otherValue otherLater,
      program.eval fuel other.env other.store = some (otherValue, otherLater) ∧
        value.Alike likeness larger otherValue ∧
        Machine.Alike likeness larger ⟨machine.env, later⟩ ⟨other.env, otherLater⟩ := by
  have related := (Program.matches_self covered).eval sound alike fuel
  rw [ends] at related
  generalize otherEnds : program.eval fuel other.env other.store = otherEnded at related
  rcases related with @⟨_, ⟨otherValue, otherLater⟩, larger, within, valueAlike, later, -⟩
  exact ⟨larger, otherValue, otherLater, rfl, valueAlike, within.envs alike.env, later⟩

/-! ### Names that are bound alike -/

/-- Bodies stand for themselves if all that they look up is bound alike. -/
def Likeness.Reflexive (likeness : Likeness) : Prop :=
  ∀ body, (∀ name ∈ Program.lookups body, likeness.names name) → likeness.bodies body body

mutual

theorem Expr.covered (reflexive : likeness.Reflexive) :
    ∀ expr : Expr, (∀ name ∈ expr.lookups, likeness.names name) → expr.Covered likeness
  | .ident name, seen => seen name List.mem_cons_self
  | .int _, _ | .bool _, _ | .str _, _ => trivial
  | .fn _ body, seen => reflexive body seen
  | .unary _ operand, seen => operand.covered reflexive seen
  | .binary left _ right, seen =>
      have parts := List.forall_mem_append.mp seen
      ⟨left.covered reflexive parts.1, right.covered reflexive parts.2⟩
  | .ifThen condition consequence, seen =>
      have parts := List.forall_mem_append.mp seen
      ⟨condition.covered reflexive parts.1, Program.covered reflexive consequence parts.2⟩
  | .ifElse condition consequence alternative, seen =>
      have parts := List.forall_mem_append.mp seen
      have branches := List.forall_mem_append.mp parts.2
      ⟨condition.covered reflexive parts.1, Program.covered reflexive consequence branches.1,
        Program.covered reflexive alternative branches.2⟩
  | .call callee args, seen =>
      have parts := List.forall_mem_append.mp seen
      ⟨callee.covered reflexive parts.1, Expr.allCovered reflexive args parts.2⟩
termination_by structural expr => expr

theorem Expr.allCovered (reflexive : likeness.Reflexive) : ∀ args : List Expr,
    (∀ name ∈ Expr.allLookups args, likeness.names name) → Expr.AllCovered likeness args
  | [], _ => trivial
  | arg :: rest, seen =>
      have parts := List.forall_mem_append.mp seen
      ⟨arg.covered reflexive parts.1, Expr.allCovered reflexive rest parts.2⟩
termination_by structural args => args

theorem Stmt.covered (reflexive : likeness.Reflexive) :
    ∀ stmt : Stmt, (∀ name ∈ stmt.lookups, likeness.names name) → stmt.Covered likeness
  | .letBe _ value, seen | .ret value, seen | .expr value, seen => value.covered reflexive seen
  | .block body, seen => Program.covered reflexive body seen
termination_by structural stmt => stmt

theorem Program.covered (reflexive : likeness.Reflexive) : ∀ stmts : List Stmt,
    (∀ name ∈ Program.lookups stmts, likeness.names name) → Program.Covered likeness stmts
  | [], _ => trivial
  | stmt :: rest, seen =>
      have parts := List.forall_mem_append.mp seen
      ⟨stmt.covered reflexive parts.1, Program.covered reflexive rest parts.2⟩
termination_by structural stmts => stmts

end

theorem Program.covered_full (stmts : List Stmt) : Program.Covered .full stmts :=
  Program.covered (fun _ _ => rfl) stmts fun _ _ => trivial

theorem Likeness.sound_full : Likeness.full.Sound := by
  rintro call otherCall calls body _ rfl pairing machine other alike
  exact (Program.matches_self (Program.covered_full body)).agree calls .null alike

theorem Machine.Closed.alike (closed : machine.Closed) :
    machine.Alike .full machine.store.diagonal machine :=
  ⟨⟨rfl, closed.existing⟩, closed.closed.alike⟩

end Monkey
