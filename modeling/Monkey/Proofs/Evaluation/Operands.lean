import Monkey.Proofs.Evaluation.Parts

/-!
# Operands in turn

The callee and the arguments of a call are its operands. They are evaluated from left to right until one
of them gives a carrier, and what the trace shows of them comes in the same order. Only if all of them
have plain values, the first one is applied to the others.
-/

namespace Monkey

/-- What the trace shows of the log: all events but bindings. -/
def Store.shown (store : Store) : List Event := store.log.toList.filter (·.line?.isSome)

@[simp]
theorem Store.shown_record (store : Store) (event : Event) :
    (store.record event).shown = store.shown ++ if event.line?.isSome then [event] else [] := by
  rw [shown, log_record, List.filter_append]
  cases line : event.line? <;> simp [shown, line]

/-- The trace only gets longer. -/
theorem Store.Later.exists_shown {store last : Store} (later : store.Later last) :
    ∃ events, last.shown = store.shown ++ events := by
  rcases later.went with ⟨events, went⟩
  exact ⟨events.filter (·.line?.isSome), by rw [shown, shown, went.log, List.filter_append]⟩

/-- The expressions are evaluated one after the other, until one of them gives a carrier. Meanwhile the
trace shows these events: behind those of an expression come those of the next one. -/
inductive Operands (fuel : Nat) :
    Machine → List Expr → List Event → Except Value (List Value) → Machine → Prop where
  | nil {machine : Machine} : Operands fuel machine [] [] (.ok []) machine
  | cut {machine later : Machine} {expr : Expr} {rest : List Expr} {carrier : Value}
      {events : List Event} (ran : (Task.expr expr).run fuel machine = some (carrier, later))
      (isCarrier : carrier.isCarrier = true)
      (shown : later.store.shown = machine.store.shown ++ events) :
      Operands fuel machine (expr :: rest) events (.error carrier) later
  | cons {machine middle later : Machine} {expr : Expr} {rest : List Expr} {value : Value}
      {events more : List Event} {outcome : Except Value (List Value)}
      (ran : (Task.expr expr).run fuel machine = some (value, middle))
      (plain : value.isCarrier = false)
      (shown : middle.store.shown = machine.store.shown ++ events)
      (others : Operands fuel middle rest more outcome later) :
      Operands fuel machine (expr :: rest) (events ++ more) (outcome.map (value :: ·)) later

namespace Operands

variable {fuel : Nat} {machine later : Machine} {events : List Event}

theorem shown_eq {exprs : List Expr} {outcome : Except Value (List Value)}
    (operands : Operands fuel machine exprs events outcome later) :
    later.store.shown = machine.store.shown ++ events := by
  induction operands with
  | nil => rw [List.append_nil]
  | cut _ _ shown => exact shown
  | cons _ _ shown _ ih => rw [ih, shown, List.append_assoc]

theorem of_cut {expr : Expr} {carrier : Value} (rest : List Expr)
    (ran : (Task.expr expr).run fuel machine = some (carrier, later))
    (isCarrier : carrier.isCarrier = true) :
    ∃ events, Operands fuel machine (expr :: rest) events (.error carrier) later := by
  rcases (Task.later_of_run ran).exists_shown with ⟨events, shown⟩
  exact ⟨events, .cut ran isCarrier shown⟩

theorem of_next {middle : Machine} {expr : Expr} {value : Value} {rest : List Expr}
    {outcome : Except Value (List Value)}
    (ran : (Task.expr expr).run fuel machine = some (value, middle))
    (plain : value.isCarrier = false) (others : Operands fuel middle rest events outcome later) :
    ∃ more, Operands fuel machine (expr :: rest) more (outcome.map (value :: ·)) later := by
  rcases (Task.later_of_run ran).exists_shown with ⟨front, shown⟩
  exact ⟨front ++ events, .cons ran plain shown others⟩

/-- Either an argument gives a carrier, and this is the result, or the callee is applied to the values
of all arguments. -/
theorem of_args {callee result : Value} {earlier : List Value} {rest : List Expr}
    (ends : (Task.args callee earlier rest).run fuel machine = some (result, later)) :
    (∃ events, Operands fuel machine rest events (.error result) later) ∨
      ∃ events values middle, Operands fuel machine rest events (.ok values) middle ∧
        Evaluation.Contains ⟨fuel, .args callee earlier rest, machine⟩
          ⟨fuel, .apply callee (earlier ++ values), middle⟩ ∧
        (Task.apply callee (earlier ++ values)).run fuel middle = some (result, later) := by
  induction rest generalizing earlier machine with
  | nil =>
      refine .inr ⟨[], [], machine, .nil, ?_, ends⟩
      rw [List.append_nil]
      exact .of_starts .apply (.refl _)
  | cons arg rest ih =>
      rcases Run.thenPlain_cases ends with ⟨ran, isCarrier⟩ | ⟨value, middle, ran, plain, followed⟩
      · exact .inl (of_cut rest ran isCarrier)
      · rw [Task.run_laterArgs] at followed
        rcases ih followed with ⟨events, others⟩ | ⟨events, values, last, others, contains, applied⟩
        · exact .inl (of_next ran plain others)
        · rcases of_next ran plain others with ⟨more, operands⟩
          rw [List.append_assoc, List.singleton_append] at contains applied
          exact .inr ⟨more, value :: values, last, operands,
            .of_starts (.laterArgs ran plain) contains, applied⟩

/-- The callee of a call is evaluated like one more argument, in front of the others. -/
theorem of_call {callee : Expr} {args : List Expr} {result : Value}
    (ends : (Task.expr (.call callee args)).run fuel machine = some (result, later)) :
    (∃ events, Operands fuel machine (callee :: args) events (.error result) later) ∨
      ∃ events value values middle,
        Operands fuel machine (callee :: args) events (.ok (value :: values)) middle ∧
          Evaluation.Contains ⟨fuel, .expr (.call callee args), machine⟩
            ⟨fuel, .apply value values, middle⟩ ∧
          (Task.apply value values).run fuel middle = some (result, later) := by
  rcases Run.thenPlain_cases ends with ⟨ran, isCarrier⟩ | ⟨value, middle, ran, plain, followed⟩
  · exact .inl (of_cut args ran isCarrier)
  · have ends : (Task.args value [] args).run fuel middle = some (result, later) := followed
    rcases of_args ends with ⟨events, others⟩ | ⟨events, values, last, others, contains, applied⟩
    · exact .inl (of_next ran plain others)
    · rcases of_next ran plain others with ⟨more, operands⟩
      exact .inr ⟨more, value, values, last, operands, .of_starts (.args ran plain) contains, applied⟩

end Operands

end Monkey
