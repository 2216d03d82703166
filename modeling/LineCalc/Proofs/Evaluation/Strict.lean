import LineCalc.Proofs.Evaluation.Stop

/-!
# Strict mode

In strict mode a name without a value is a problem; otherwise it counts as zero. Problems are not
lost on the way up, so an expression that comes to no problem in strict mode has met no such name.

Result:
1. `Expr.Yields.lax`: what an expression comes to without a problem in strict mode, it also comes to
   otherwise.
-/

namespace LineCalc

/-- The scope in which a name without a value counts as zero. -/
def Scope.lax (s : Scope) : Scope := { s with strict := false }

/-! ## Problems on the way up -/

namespace Value

variable {rates : RateTable} {v w u : Value}

theorem isError_of_negate (clean : v.negate.isError = false) : v.isError = false := by
  cases v with
  | error p => cases clean
  | empty | amount => rfl

theorem isError_of_share {fraction : Float} (clean : (v.share fraction).isError = false) :
    v.isError = false := by
  cases v with
  | error p => cases clean
  | empty | amount => rfl

theorem isError_of_convertTo {target : String}
    (clean : (v.convertTo rates target).isError = false) : v.isError = false := by
  cases v with
  | error p => cases clean
  | empty | amount => rfl

theorem isError_of_apply {op : BinaryOp} (done : v.apply rates op w = .ok u)
    (clean : u.isError = false) : v.isError = false ∧ w.isError = false := by
  cases v with
  | error p =>
    cases done
    cases clean
  | empty | amount =>
    cases w with
    | error p =>
      cases done
      cases clean
    | empty | amount => exact ⟨rfl, rfl⟩

end Value

namespace Scope

variable {s : Scope} {v w : Value}

theorem isError_of_resume {op : BinaryOp} (done : s.resume op v = .ok w)
    (clean : w.isError = false) : v.isError = false := by
  unfold resume at done
  split at done
  · cases done
    split at clean
    · exact Value.isError_of_negate clean
    · exact clean
  · exact (Value.isError_of_apply done clean).2

theorem resolve_lax {name : String} (clean : (s.resolve name).isError = false) :
    s.lax.resolve name = s.resolve name := by
  cases strict : s.strict with
  | false => rw [lax, ← strict]
  | true =>
    have known : (s.find name).isSome = true := by
      cases found : s.find name with
      | some v => rfl
      | none =>
        rw [resolve, found, strict] at clean
        cases clean
    obtain ⟨v, found⟩ := Option.isSome_iff_exists.mp known
    simp only [resolve, lax, found]

end Scope

/-! ## Expressions -/

variable {s : Scope}

mutual

/-- What an expression comes to without a problem in strict mode, it also comes to otherwise. -/
theorem Expr.Yields.lax {e : Expr} {v : Value} (h : e.Yields s v) : e.Yields s.lax v := by
  obtain ⟨value, clean⟩ := h
  refine ⟨?_, clean⟩
  cases e with
  | literal | resumeConversion =>
    rw [Expr.eval] at value ⊢
    exact value
  | name n =>
    rw [Expr.eval] at value ⊢
    cases value
    exact congrArg Except.ok (Scope.resolve_lax clean)
  | binary left op right =>
    rw [Expr.eval] at value
    obtain ⟨x, first, value⟩ := bind_ok_iff.mp value
    split at value
    · cases value
      cases clean
    · next notError =>
      obtain ⟨y, second, value⟩ := bind_ok_iff.mp value
      obtain ⟨cleanLeft, cleanRight⟩ := Value.isError_of_apply value clean
      rw [eval_binary_of_yields (Expr.Yields.lax ⟨first, cleanLeft⟩),
        (Expr.Yields.lax ⟨second, cleanRight⟩).1]
      exact value
  | signed sign e =>
    cases sign with
    | plus =>
      rw [Expr.eval] at value ⊢
      exact (Expr.Yields.lax ⟨value, clean⟩).1
    | minus =>
      rw [Expr.eval] at value ⊢
      obtain ⟨x, operand, rfl⟩ := map_ok_iff.mp value
      rw [(Expr.Yields.lax ⟨operand, Value.isError_of_negate clean⟩).1]
      rfl
  | percentOf fraction raw base =>
    rw [Expr.eval] at value ⊢
    obtain ⟨x, operand, rfl⟩ := map_ok_iff.mp value
    rw [(Expr.Yields.lax ⟨operand, Value.isError_of_share clean⟩).1]
    rfl
  | conversion e target =>
    rw [Expr.eval] at value ⊢
    obtain ⟨x, operand, rfl⟩ := map_ok_iff.mp value
    rw [(Expr.Yields.lax ⟨operand, Value.isError_of_convertTo clean⟩).1]
    rfl
  | call function args =>
    rw [Expr.eval] at value ⊢
    obtain ⟨p | vs, values, value⟩ := bind_ok_iff.mp value
    · cases value
      cases clean
    · rw [evalArgs_lax values]
      exact value
  | group e =>
    rw [Expr.eval] at value ⊢
    exact (Expr.Yields.lax ⟨value, clean⟩).1
  | resume op e =>
    rw [Expr.eval] at value ⊢
    obtain ⟨x, operand, value⟩ := bind_ok_iff.mp value
    rw [(Expr.Yields.lax ⟨operand, Scope.isError_of_resume value clean⟩).1]
    exact value

/-- The same for arguments. -/
theorem evalArgs_lax {es : List Expr} {vs : List Value} (h : evalArgs s es = .ok (.ok vs)) :
    evalArgs s.lax es = .ok (.ok vs) := by
  cases es with
  | nil =>
    rw [evalArgs] at h ⊢
    exact h
  | cons e es =>
    rw [evalArgs] at h
    obtain ⟨x, first, h⟩ := bind_ok_iff.mp h
    split at h
    · cases h
    · next notError =>
      obtain ⟨p | others, rest, h⟩ := bind_ok_iff.mp h
      · cases h
      · rw [evalArgs_cons_of_yields (Expr.Yields.lax ⟨first, Value.isError_eq_false notError⟩),
          evalArgs_lax rest]
        exact h

end

end LineCalc
