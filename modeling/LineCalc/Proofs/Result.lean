import LineCalc.Fault
import LineCalc.Value

/-!
# Results and faults

A step after another step has a result exactly if both have one. What goes wrong within a
calculation is no fault but a value, a problem.
-/

namespace LineCalc

variable {ε α β : Type}

theorem bind_ok_iff {first : Except ε α} {next : α → Except ε β} {b : β} :
    (first >>= next) = .ok b ↔ ∃ a, first = .ok a ∧ next a = .ok b := by
  cases first <;> simp [bind, Except.bind]

theorem map_ok_iff {first : Except ε α} {f : α → β} {b : β} :
    first.map f = .ok b ↔ ∃ a, first = .ok a ∧ f a = b := by
  cases first <;> simp [Except.map]

theorem bind_error_iff {first : Except ε α} {next : α → Except ε β} {f : ε} :
    (first >>= next) = .error f ↔ first = .error f ∨ ∃ a, first = .ok a ∧ next a = .error f := by
  cases first <;> simp [bind, Except.bind]

theorem map_error_iff {first : Except ε α} {g : α → β} {f : ε} :
    first.map g = .error f ↔ first = .error f := by
  cases first <;> simp [Except.map]

theorem Value.isError_eq_false {v : Value} (h : ∀ p, v = .error p → False) : v.isError = false := by
  cases v with
  | error p => exact (h p rfl).elim
  | empty | amount => rfl

theorem eq_ok_of_toOption {r : Except ε α} {a : α} (h : r.toOption = some a) : r = .ok a := by
  cases r with
  | error e => simp [Except.toOption] at h
  | ok b => exact congrArg Except.ok (Option.some.inj h)

end LineCalc
