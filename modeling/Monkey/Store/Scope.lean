import Monkey.Value.Basic

/-!
# Scopes

A scope binds each name at most once; binding a name again replaces the value. It also knows the
scopes around it, which are fixed when it is opened.
-/

namespace Monkey

/-- A scope with its bindings. -/
structure Scope where
  /-- The environments around it, from the inside out. -/
  outer : List Env
  /-- Each bound name with its value. -/
  bindings : List (String × Value)
deriving DecidableEq

namespace Scope

/-- A scope that binds nothing. -/
def opened (outer : List Env) : Scope := ⟨outer, []⟩

/-- The value of a name. -/
def get? (scope : Scope) (name : String) : Option Value := scope.bindings.lookup name

/-- Binds a name. -/
def set (scope : Scope) (name : String) (value : Value) : Scope :=
  { scope with bindings := (name, value) :: scope.bindings.filter (·.1 ≠ name) }

@[simp]
theorem outer_set (scope : Scope) (name : String) (value : Value) :
    (scope.set name value).outer = scope.outer := rfl

@[simp]
theorem get?_opened (outer : List Env) (name : String) : (opened outer).get? name = none := rfl

@[simp]
theorem get?_set_self (scope : Scope) (name : String) (value : Value) :
    (scope.set name value).get? name = some value := by
  simp [get?, set]

theorem get?_set_of_ne (scope : Scope) (value : Value) {name other : String}
    (distinct : other ≠ name) : (scope.set name value).get? other = scope.get? other := by
  obtain ⟨outer, bindings⟩ := scope
  simp only [get?, set, List.lookup_cons, beq_false_of_ne distinct]
  induction bindings with
  | nil => rfl
  | cons binding rest ih =>
    obtain ⟨bound, held⟩ := binding
    by_cases found : other = bound
    · subst found
      simp [distinct]
    · by_cases replaced : bound = name <;>
        simpa [replaced, List.lookup_cons, beq_false_of_ne found, beq_false_of_ne distinct] using ih

end Scope

end Monkey
