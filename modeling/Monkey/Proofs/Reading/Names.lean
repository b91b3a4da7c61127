import Monkey.Proofs.Evaluation.Lookups
import Monkey.Proofs.Reading.Joining

/-!
# Names of a source text

What a program looks up stands in the text that it is read from: each of these names is a token there.
-/

namespace Monkey

/-- None of the tokens is the name. -/
def Unnamed (name : String) (tokens : List Token) : Prop :=
  ∀ token ∈ tokens, token.kind = .ident → token.literal ≠ name

namespace Unnamed

variable {name : String} {tokens more : List Token} {token : Token}

theorem append_iff :
    Unnamed name (tokens ++ more) ↔ Unnamed name tokens ∧ Unnamed name more :=
  List.forall_mem_append

theorem cons_iff :
    Unnamed name (token :: tokens) ↔
      (token.kind = .ident → token.literal ≠ name) ∧ Unnamed name tokens :=
  List.forall_mem_cons

end Unnamed

section

variable {name : String}

open Unnamed

mutual

theorem Expr.Spelled.not_mem_lookups : ∀ {power : Nat} {tokens : List Token} {expr : Expr},
    Expr.Spelled power tokens expr → Unnamed name tokens → name ∉ expr.lookups
  | _, _, _, .climb tighter, unnamed => tighter.not_mem_lookups unnamed
  | _, _, _, .binary leftSpelled _ rightSpelled, unnamed => by
      simp only [append_iff, cons_iff] at unnamed
      exact List.not_mem_append (leftSpelled.not_mem_lookups unnamed.1)
        (rightSpelled.not_mem_lookups unnamed.2.2)
  | _, _, _, .unary _ operandSpelled, unnamed =>
      operandSpelled.not_mem_lookups (cons_iff.mp unnamed).2
  | _, _, _, .call calleeSpelled _ argsSpelled _, unnamed => by
      simp only [append_iff, cons_iff] at unnamed
      exact List.not_mem_append (calleeSpelled.not_mem_lookups unnamed.1)
        (argsSpelled.not_mem_lookups unnamed.2.2.1)
  | _, _, _, .ident nameKind, unnamed => by
      simpa [Expr.lookups, eq_comm] using (cons_iff.mp unnamed).1 nameKind
  | _, _, _, .int _ _, _ => List.not_mem_nil
  | _, _, _, .str _, _ => List.not_mem_nil
  | _, _, _, .yes _, _ => List.not_mem_nil
  | _, _, _, .no _, _ => List.not_mem_nil
  | _, _, _, .group _ exprSpelled _, unnamed => by
      simp only [append_iff, cons_iff] at unnamed
      exact exprSpelled.not_mem_lookups unnamed.2.1
  | _, _, _, .ifThen _ _ conditionSpelled _ branchSpelled, unnamed => by
      simp only [append_iff, cons_iff] at unnamed
      exact List.not_mem_append (conditionSpelled.not_mem_lookups unnamed.2.2.1)
        (branchSpelled.not_mem_lookups unnamed.2.2.2.2)
  | _, _, _, .ifElse _ _ conditionSpelled _ branchSpelled _ otherSpelled, unnamed => by
      simp only [append_iff, cons_iff] at unnamed
      exact List.not_mem_append (conditionSpelled.not_mem_lookups unnamed.2.2.1)
        (List.not_mem_append (branchSpelled.not_mem_lookups unnamed.2.2.2.2.1)
          (otherSpelled.not_mem_lookups unnamed.2.2.2.2.2.2))
  | _, _, _, .fn _ _ _ _ bodySpelled, unnamed => by
      simp only [append_iff, cons_iff] at unnamed
      exact bodySpelled.not_mem_lookups unnamed.2.2.2.2
termination_by structural _ _ _ spelled => spelled

theorem Expr.ArgsSpelled.not_mem_lookups : ∀ {tokens : List Token} {args : List Expr},
    Expr.ArgsSpelled tokens args → Unnamed name tokens → name ∉ Expr.allLookups args
  | _, _, .none, _ => List.not_mem_nil
  | _, _, .first argSpelled, unnamed =>
      List.not_mem_append (argSpelled.not_mem_lookups unnamed) List.not_mem_nil
  | _, _, .later earlier _ _ argSpelled, unnamed => by
      simp only [append_iff, cons_iff] at unnamed
      rw [Expr.allLookups_append]
      exact List.not_mem_append (earlier.not_mem_lookups unnamed.1)
        (List.not_mem_append (argSpelled.not_mem_lookups unnamed.2.2) List.not_mem_nil)
termination_by structural _ _ spelled => spelled

theorem Stmt.Spelled.not_mem_lookups : ∀ {bare : Bool} {tokens : List Token} {stmt : Stmt},
    Stmt.Spelled bare tokens stmt → Unnamed name tokens → name ∉ stmt.lookups
  | _, _, _, .letBe _ _ _ valueSpelled _, unnamed => by
      simp only [append_iff, cons_iff] at unnamed
      exact valueSpelled.not_mem_lookups unnamed.2.2.2.1
  | _, _, _, .ret _ valueSpelled _, unnamed => by
      simp only [append_iff, cons_iff] at unnamed
      exact valueSpelled.not_mem_lookups unnamed.2.1
  | _, _, _, .expr valueSpelled _, unnamed =>
      valueSpelled.not_mem_lookups (append_iff.mp unnamed).1
  | _, _, _, .block bodySpelled, unnamed => bodySpelled.not_mem_lookups unnamed
termination_by structural _ _ _ spelled => spelled

theorem Program.BlockSpelled.not_mem_lookups : ∀ {tokens : List Token} {body : List Stmt},
    Program.BlockSpelled tokens body → Unnamed name tokens → name ∉ Program.lookups body
  | _, _, .mk _ bodySpelled _, unnamed => by
      simp only [append_iff, cons_iff] at unnamed
      exact bodySpelled.not_mem_lookups unnamed.2.1
termination_by structural _ _ spelled => spelled

theorem Program.Spelled.not_mem_lookups : ∀ {bare : Bool} {tokens : List Token}
    {program : List Stmt}, Program.Spelled bare tokens program → Unnamed name tokens →
      name ∉ Program.lookups program
  | _, _, _, .nil, _ => List.not_mem_nil
  | _, _, _, .snoc earlier _ lastSpelled, unnamed => by
      rw [append_iff] at unnamed
      rw [Program.lookups_append]
      exact List.not_mem_append (earlier.not_mem_lookups unnamed.1)
        (List.not_mem_append (lastSpelled.not_mem_lookups unnamed.2) List.not_mem_nil)
termination_by structural _ _ _ spelled => spelled

end

end

/-- A program that is read from a source text looks up no names but those in the text. -/
theorem not_mem_lookups_of_parseText {source name : String} {program : Program}
    (reads : parseText source = (program, [])) (unnamed : Unnamed name (tokenize source)) :
    name ∉ Program.lookups program := by
  rcases parseText_eq_iff_spelled.mp reads with ⟨bare, spelled⟩
  exact spelled.not_mem_lookups fun token member =>
    unnamed token ((List.dropLast_sublist _).subset member)

end Monkey
