import LineCalc.Proofs.Evaluation.Strict

/-!
# Names with a value

Whether a scope is strict matters only for names without a value. An expression of which all names
have values comes to the same in strict mode and otherwise, a fault included. All parts of an
expression are evaluated, so one that comes to no problem in strict mode has no other names.

Results:
1. `Expr.eval_withStrict`: an expression all of whose names have values, evaluated in either mode.
2. `Expr.Yields.known`: the names of an expression that comes to no problem in strict mode.
-/

namespace LineCalc

variable {s : Scope}

/-- The scope in one of the two modes. -/
def Scope.withStrict (s : Scope) (strict : Bool) : Scope := { s with strict }

theorem Scope.resolve_withStrict {name : String} (known : (s.find name).isSome = true)
    (strict : Bool) : (s.withStrict strict).resolve name = s.resolve name := by
  obtain ⟨v, found⟩ := Option.isSome_iff_exists.mp known
  simp only [resolve, withStrict, found]

mutual

/-- An expression all of whose names have values comes to the same in either mode. -/
theorem Expr.eval_withStrict (e : Expr) (known : ∀ n ∈ e.mentions, (s.find n).isSome = true)
    (strict : Bool) : e.eval (s.withStrict strict) = e.eval s := by
  cases e with
  | literal | resumeConversion => rfl
  | name n =>
    have found := known n (List.mem_singleton_self n)
    show Except.ok _ = Except.ok _
    rw [Scope.resolve_withStrict found]
  | binary left op right =>
    have first := Expr.eval_withStrict left
      (fun n mem => known n (List.mem_append_left _ mem)) strict
    have second := Expr.eval_withStrict right
      (fun n mem => known n (List.mem_append_right _ mem)) strict
    rw [Expr.eval, Expr.eval, first, second]
    rfl
  | signed sign e =>
    have operand := Expr.eval_withStrict e known strict
    cases sign with
    | plus => exact operand
    | minus => rw [Expr.eval, Expr.eval, operand]
  | percentOf fraction raw base =>
    have operand := Expr.eval_withStrict base known strict
    rw [Expr.eval, Expr.eval, operand]
  | conversion e target =>
    have operand := Expr.eval_withStrict e known strict
    rw [Expr.eval, Expr.eval, operand]
    rfl
  | call function args =>
    have values := evalArgs_withStrict args known strict
    rw [Expr.eval, Expr.eval, values]
  | group e => exact Expr.eval_withStrict e known strict
  | resume op e =>
    have operand := Expr.eval_withStrict e known strict
    rw [Expr.eval, Expr.eval, operand]
    rfl

/-- The same for arguments. -/
theorem evalArgs_withStrict (es : List Expr)
    (known : ∀ n ∈ Expr.mentionsAll es, (s.find n).isSome = true) (strict : Bool) :
    evalArgs (s.withStrict strict) es = evalArgs s es := by
  cases es with
  | nil => rfl
  | cons e es =>
    have first := Expr.eval_withStrict e
      (fun n mem => known n (List.mem_append_left _ mem)) strict
    have rest := evalArgs_withStrict es
      (fun n mem => known n (List.mem_append_right _ mem)) strict
    rw [evalArgs, evalArgs, first, rest]

end

theorem Scope.known_of_resolve {name : String} (strict : s.strict = true)
    (clean : (s.resolve name).isError = false) : (s.find name).isSome = true := by
  cases found : s.find name with
  | some v => rfl
  | none =>
    rw [resolve, found, strict] at clean
    cases clean

mutual

/-- All names of an expression that comes to no problem in strict mode have values. -/
theorem Expr.Yields.known {e : Expr} {v : Value} (strict : s.strict = true) (h : e.Yields s v) :
    ∀ n ∈ e.mentions, (s.find n).isSome = true := by
  obtain ⟨value, clean⟩ := h
  intro n mem
  cases e with
  | literal | resumeConversion => cases mem
  | name m =>
    rw [List.mem_singleton.mp mem]
    cases value
    exact Scope.known_of_resolve strict clean
  | binary left op right =>
    rw [Expr.eval] at value
    obtain ⟨x, first, value⟩ := bind_ok_iff.mp value
    split at value
    · cases value
      cases clean
    · obtain ⟨y, second, value⟩ := bind_ok_iff.mp value
      obtain ⟨cleanLeft, cleanRight⟩ := Value.isError_of_apply value clean
      rcases List.mem_append.mp mem with mem | mem
      · exact Expr.Yields.known strict ⟨first, cleanLeft⟩ n mem
      · exact Expr.Yields.known strict ⟨second, cleanRight⟩ n mem
  | signed sign e =>
    cases sign with
    | plus =>
      rw [Expr.eval] at value
      exact Expr.Yields.known strict ⟨value, clean⟩ n mem
    | minus =>
      rw [Expr.eval] at value
      obtain ⟨x, operand, rfl⟩ := map_ok_iff.mp value
      exact Expr.Yields.known strict ⟨operand, Value.isError_of_negate clean⟩ n mem
  | percentOf fraction raw base =>
    rw [Expr.eval] at value
    obtain ⟨x, operand, rfl⟩ := map_ok_iff.mp value
    exact Expr.Yields.known strict ⟨operand, Value.isError_of_share clean⟩ n mem
  | conversion e target =>
    rw [Expr.eval] at value
    obtain ⟨x, operand, rfl⟩ := map_ok_iff.mp value
    exact Expr.Yields.known strict ⟨operand, Value.isError_of_convertTo clean⟩ n mem
  | call function args =>
    rw [Expr.eval] at value
    obtain ⟨p | vs, values, value⟩ := bind_ok_iff.mp value
    · cases value
      cases clean
    · exact known_of_evalArgs strict values n mem
  | group e =>
    rw [Expr.eval] at value
    exact Expr.Yields.known strict ⟨value, clean⟩ n mem
  | resume op e =>
    rw [Expr.eval] at value
    obtain ⟨x, operand, value⟩ := bind_ok_iff.mp value
    exact Expr.Yields.known strict ⟨operand, Scope.isError_of_resume value clean⟩ n mem

/-- The same for arguments. -/
theorem known_of_evalArgs {es : List Expr} {vs : List Value} (strict : s.strict = true)
    (h : evalArgs s es = .ok (.ok vs)) : ∀ n ∈ Expr.mentionsAll es, (s.find n).isSome = true := by
  intro n mem
  cases es with
  | nil => cases mem
  | cons e es =>
    rw [evalArgs] at h
    obtain ⟨x, first, h⟩ := bind_ok_iff.mp h
    split at h
    · cases h
    · next notError =>
      obtain ⟨p | others, rest, h⟩ := bind_ok_iff.mp h
      · cases h
      · rcases List.mem_append.mp mem with mem | mem
        · exact Expr.Yields.known strict ⟨first, Value.isError_eq_false notError⟩ n mem
        · exact known_of_evalArgs strict rest n mem

end

end LineCalc
