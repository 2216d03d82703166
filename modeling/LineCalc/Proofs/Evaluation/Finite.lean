import LineCalc.Proofs.Decimal.Finite
import LineCalc.Proofs.Result
import LineCalc.Session.Eval

/-!
# Where results are not finite

Operators, shares and most functions refuse a result that is not finite: a problem takes its place.
But this check is made operation by operation, and some values come about without it. `Expr.Leaks`
lists them: amounts as they stand in the text, the total, conversions, and the count, the least and
the greatest of some arguments. What is not finite gets out of an expression only there, and only as
long as no checked operation stands around it.

Results:
1. `Expr.leaks_iff`: from finite variables an expression has a value that is not finite exactly
   where `Expr.Leaks` has it.
-/

namespace LineCalc

/-! ## Finite values -/

/-- The amount is finite. What has no amount counts as finite. -/
def Value.isFinite (v : Value) : Bool := v.magnitude.isFinite

/-- The functions whose result is not checked. -/
def Aggregate.isUnchecked : Aggregate → Bool
  | .count | .least | .greatest => true
  | .sum | .average => false

/-- The value of an expression comes without a check and is not finite. -/
inductive Expr.Leaks (s : Scope) : Expr → Prop
  | literal {x : Float} {d : Denomination} {raw : String} :
      x.isFinite = false → Leaks s (.literal x d raw)
  /-- Beside the total, which is a sum without a check, names stand for what was held before. -/
  | total {name : String} :
      Text.lower name = totalName → (s.resolve name).isFinite = false → Leaks s (.name name)
  | signed {sign : SignOp} {e : Expr} : Leaks s e → Leaks s (.signed sign e)
  | group {e : Expr} : Leaks s e → Leaks s (.group e)
  | conversion {e : Expr} {target : String} {v : Value} :
      e.eval s = .ok v → (v.convertTo s.rates target).isFinite = false →
      Leaks s (.conversion e target)
  | call {function : String} {args : List Expr} {vs : List Value} {a : Aggregate} {v : Value} :
      evalArgs s args = .ok (.ok vs) →
      Builtin.ofName? (Text.lower function) = some (.aggregate a) → a.isUnchecked = true →
      a.apply (Text.lower function) vs = .ok v → v.isFinite = false → Leaks s (.call function args)
  /-- Without a previous result the operand stands alone. -/
  | alone {op : BinaryOp} {e : Expr} :
      s.previous.isEmpty = true → Leaks s e → Leaks s (.resume op e)
  | resumeConversion {target : String} :
      s.previous.isEmpty = false → (s.previous.convertTo s.rates target).isFinite = false →
      Leaks s (.resumeConversion target)

/-- The value of a statement leaks. An assignment to a reserved name is refused before its
expression is looked at. -/
inductive Statement.Leaks (s : Scope) : Statement → Prop
  | expr {e : Expr} : e.Leaks s → Leaks s (.expr e)
  | assign {name : String} {e : Expr} :
      isReservedName name = false → e.Leaks s → Leaks s (.assign name e)

/-- What an expression is evaluated in is finite, except perhaps for the total. -/
structure Scope.Finite (s : Scope) : Prop where
  find : ∀ name v, s.find name = some v → Text.lower name ≠ totalName → v.isFinite = true
  previous : s.previous.isFinite = true

/-! ## Checked operations -/

namespace Value

theorem isFinite_number_zero : (number 0).isFinite = true := by decide +kernel

@[simp] theorem isFinite_empty : empty.isFinite = true := isFinite_number_zero

@[simp] theorem isFinite_error (p : Problem) : (error p).isFinite = true := isFinite_number_zero

theorem checked_amount (n : Float) (d : Denomination) :
    (amount n d).checked = if n.isFinite then amount n d else .error .invalidResult := rfl

@[simp] theorem isFinite_checked (v : Value) : v.checked.isFinite = true := by
  unfold checked
  split
  · assumption
  · exact isFinite_error _

@[simp] theorem isFinite_negate (v : Value) : v.negate.isFinite = v.isFinite := by
  cases v with
  | empty | error => rfl
  | amount n d => exact Decimal.isFinite_neg n

theorem isFinite_share (fraction : Float) (v : Value) : (v.share fraction).isFinite = true := by
  cases v with
  | error p => exact isFinite_error p
  | empty | amount => exact isFinite_checked _

theorem isFinite_power (base exponent : Float) : (power base exponent).isFinite = true := by
  unfold power
  simp only
  split
  · exact isFinite_error _
  · exact isFinite_checked _

theorem isFinite_combineRated (rates : RateTable) (f : Float → Float → Float) (v w : Value) :
    (combineRated rates f v w).isFinite = true := by
  unfold combineRated
  split <;> split
  · exact isFinite_error _
  · exact isFinite_checked _
  · exact isFinite_error _
  · exact isFinite_checked _

theorem isFinite_combine (rates : RateTable) (f : Float → Float → Float) (v w : Value) :
    (combine rates f v w).isFinite = true := by
  unfold combine
  split
  · exact isFinite_checked _
  split
  · exact isFinite_checked _
  split
  · split
    · exact isFinite_error _
    · exact isFinite_checked _
  · split
    · exact isFinite_combineRated rates f _ _
    · exact isFinite_error _

theorem isFinite_addOrSub (rates : RateTable) (op : BinaryOp) (v w : Value) :
    (addOrSub rates op v w).isFinite = true := by
  unfold addOrSub
  split
  · exact isFinite_checked _
  · exact isFinite_combine rates _ v w

theorem isFinite_scaled (v w : Value) (n : Float) : (scaled v w n).isFinite = true :=
  isFinite_checked _

theorem isFinite_applyAmounts {rates : RateTable} {op : BinaryOp} {v w u : Value}
    (h : applyAmounts rates op v w = .ok u) : u.isFinite = true := by
  cases op with
  | add | sub =>
    cases h
    exact isFinite_addOrSub rates _ v w
  | mul =>
    cases h
    exact isFinite_scaled v w _
  | div =>
    cases h
    split
    · exact isFinite_error _
    · exact isFinite_scaled v w _
  | mod =>
    simp only [applyAmounts] at h
    split at h
    · cases h
      exact isFinite_error _
    · split at h <;> cases h
      exact isFinite_scaled v w _
  | pow =>
    cases h
    exact isFinite_power _ _

theorem isFinite_apply {rates : RateTable} {op : BinaryOp} {v w u : Value}
    (h : v.apply rates op w = .ok u) : u.isFinite = true := by
  unfold apply at h
  split at h
  · cases h
    exact isFinite_error _
  · cases h
    exact isFinite_error _
  · exact isFinite_applyAmounts h

end Value

/-! ## Checked functions -/

theorem Aggregate.isFinite_apply {a : Aggregate} {name : String} {vs : List Value} {v : Value}
    (h : a.apply name vs = .ok v) (checked : a.isUnchecked = false) : v.isFinite = true := by
  cases a with
  | count | least | greatest => cases checked
  | sum =>
    cases vs with
    | nil =>
      cases h
      exact Value.isFinite_number_zero
    | cons first rest =>
      obtain ⟨x, -, rfl⟩ := map_ok_iff.mp h
      exact Value.isFinite_checked _
  | average =>
    cases vs with
    | nil =>
      cases h
      exact Value.isFinite_error _
    | cons first rest =>
      obtain ⟨x, -, rfl⟩ := map_ok_iff.mp h
      exact Value.isFinite_checked _

namespace UnaryFunction

theorem isFinite_real (f : Float → Float) (x : Float) : (real f x).isFinite = true := by
  unfold real
  simp only
  split
  · exact Value.isFinite_error _
  · exact Value.isFinite_checked _

theorem isFinite_integral {f : Decimal.Binary → Int} {x : Float}
    (h : ∀ b, Decimal.binary? x = some b → (Decimal.Binary.ofInt (f b) 0).toFloat.isFinite = true) :
    (integral f x).isFinite = true := by
  unfold integral
  split
  · next b exact => exact h b exact
  · exact Value.isFinite_error _

theorem isFinite_apply (f : UnaryFunction) (x : Float) : (f.apply x).isFinite = true := by
  cases f with
  | floor => exact isFinite_integral fun b => Decimal.isFinite_floor
  | ceil => exact isFinite_integral fun b => Decimal.isFinite_ceil
  | abs | sqrt | log10 | ln | exp | sin | cos | tan | asin | acos | atan =>
    exact isFinite_real _ x

end UnaryFunction

theorem isFinite_roundTo {x places : Float} {v : Value} (h : roundTo x places = .ok v) :
    v.isFinite = true := by
  obtain ⟨n, -, h⟩ := bind_ok_iff.mp h
  split at h <;> cases h
  exact Value.isFinite_checked _

theorem Builtin.isFinite_apply {g : Builtin} {name : String} {vs : List Value} {v : Value}
    (h : g.apply name vs = .ok v) (checked : ∀ a, g = .aggregate a → a.isUnchecked = false) :
    v.isFinite = true := by
  unfold Builtin.apply at h
  split at h
  · exact Aggregate.isFinite_apply h (checked _ rfl)
  · cases h
    exact UnaryFunction.isFinite_apply _ _
  · cases h
    exact Value.isFinite_error _
  · exact isFinite_roundTo h
  · exact isFinite_roundTo h
  · cases h
    exact Value.isFinite_error _
  · cases h
    exact Value.isFinite_power _ _
  · cases h
    exact Value.isFinite_error _

/-! ## Expressions -/

variable {s : Scope}

/-- What leaks is the value of the expression. -/
theorem Expr.Leaks.eval {e : Expr} (h : e.Leaks s) :
    ∃ v, e.eval s = .ok v ∧ v.isFinite = false := by
  induction h with
  | @literal x d raw infinite => exact ⟨.amount x d, by rw [Expr.eval], infinite⟩
  | @total name _ infinite => exact ⟨s.resolve name, by rw [Expr.eval], infinite⟩
  | @signed sign e _ ih =>
    obtain ⟨v, hv, infinite⟩ := ih
    cases sign with
    | plus => exact ⟨v, by rw [Expr.eval, hv], infinite⟩
    | minus => exact ⟨v.negate, by rw [Expr.eval, hv]; rfl, by rwa [Value.isFinite_negate]⟩
  | @group e _ ih =>
    obtain ⟨v, hv, infinite⟩ := ih
    exact ⟨v, by rw [Expr.eval, hv], infinite⟩
  | @conversion e target v hv infinite => exact ⟨_, by rw [Expr.eval, hv]; rfl, infinite⟩
  | @call function args vs a v hvs named _ result infinite =>
    refine ⟨v, ?_, infinite⟩
    simp only [Expr.eval, hvs, bind, Except.bind, named]
    exact result
  | @alone op e none _ ih =>
    obtain ⟨v, hv, infinite⟩ := ih
    refine ⟨if op == .sub then v.negate else v, ?_, ?_⟩
    · simp only [Expr.eval, hv, bind, Except.bind, Scope.resume, none, if_true]
    · split
      · rwa [Value.isFinite_negate]
      · exact infinite
  | @resumeConversion target some infinite =>
    refine ⟨s.previous.convertTo s.rates target, ?_, infinite⟩
    simp only [Expr.eval, some, Bool.false_eq_true, if_false]

theorem Scope.Finite.resolve (finite : s.Finite) {name : String}
    (notTotal : Text.lower name ≠ totalName) : (s.resolve name).isFinite = true := by
  unfold Scope.resolve
  split
  · next v found => exact finite.find name v found notTotal
  · split
    · exact Value.isFinite_error _
    · exact Value.isFinite_number_zero

theorem Scope.isFinite_resume {op : BinaryOp} {v w : Value} (some : s.previous.isEmpty = false)
    (h : s.resume op v = .ok w) : w.isFinite = true := by
  simp only [Scope.resume, some, Bool.false_eq_true, if_false] at h
  exact Value.isFinite_apply h

/-- A value that is not finite comes from where something leaks. -/
theorem Expr.leaks_of_eval (finite : s.Finite) {e : Expr} {v : Value} (h : e.eval s = .ok v)
    (infinite : v.isFinite = false) : e.Leaks s := by
  -- A checked result is finite.
  have refuted {p : Prop} (checked : v.isFinite = true) : p := by
    rw [checked] at infinite
    cases infinite
  cases e with
  | literal x d raw =>
    simp only [Expr.eval] at h
    cases h
    exact .literal infinite
  | name n =>
    simp only [Expr.eval] at h
    cases h
    by_cases isTotal : Text.lower n = totalName
    · exact .total isTotal infinite
    · exact refuted (finite.resolve isTotal)
  | binary left op right =>
    simp only [Expr.eval] at h
    obtain ⟨x, -, h⟩ := bind_ok_iff.mp h
    split at h
    · cases h
      exact refuted (Value.isFinite_error _)
    · obtain ⟨y, -, h⟩ := bind_ok_iff.mp h
      exact refuted (Value.isFinite_apply h)
  | signed sign e =>
    cases sign with
    | plus =>
      simp only [Expr.eval] at h
      exact .signed (leaks_of_eval finite h infinite)
    | minus =>
      simp only [Expr.eval] at h
      obtain ⟨x, hx, rfl⟩ := map_ok_iff.mp h
      rw [Value.isFinite_negate] at infinite
      exact .signed (leaks_of_eval finite hx infinite)
  | percentOf fraction raw base =>
    simp only [Expr.eval] at h
    obtain ⟨x, -, rfl⟩ := map_ok_iff.mp h
    exact refuted (Value.isFinite_share fraction x)
  | conversion e target =>
    simp only [Expr.eval] at h
    obtain ⟨x, hx, rfl⟩ := map_ok_iff.mp h
    exact .conversion hx infinite
  | call function args =>
    simp only [Expr.eval] at h
    obtain ⟨_ | vs, hvs, h⟩ := bind_ok_iff.mp h
    · cases h
      exact refuted (Value.isFinite_error _)
    · simp only at h
      split at h
      · next g named =>
        by_cases unchecked : ∃ a, g = .aggregate a ∧ a.isUnchecked = true
        · obtain ⟨a, rfl, unchecked⟩ := unchecked
          exact .call hvs named unchecked h infinite
        · refine refuted (Builtin.isFinite_apply h fun a eq => ?_)
          exact Bool.eq_false_iff.mpr fun unchecked' => unchecked ⟨a, eq, unchecked'⟩
      · cases h
        exact refuted (Value.isFinite_error _)
  | group e =>
    simp only [Expr.eval] at h
    exact .group (leaks_of_eval finite h infinite)
  | resume op e =>
    simp only [Expr.eval] at h
    obtain ⟨x, hx, h⟩ := bind_ok_iff.mp h
    cases none : s.previous.isEmpty with
    | false => exact refuted (Scope.isFinite_resume none h)
    | true =>
      simp only [Scope.resume, none, if_true] at h
      cases h
      refine .alone none (leaks_of_eval finite hx ?_)
      split at infinite
      · rwa [Value.isFinite_negate] at infinite
      · exact infinite
  | resumeConversion target =>
    simp only [Expr.eval] at h
    cases h
    cases none : s.previous.isEmpty with
    | true =>
      simp only [none, if_true] at refuted
      exact refuted (Value.isFinite_error _)
    | false =>
      simp only [none, Bool.false_eq_true, if_false] at infinite
      exact .resumeConversion none infinite

/-- The places listed are all where a value that is not finite gets out of an expression. -/
theorem Expr.leaks_iff (finite : s.Finite) {e : Expr} :
    e.Leaks s ↔ ∃ v, e.eval s = .ok v ∧ v.isFinite = false := by
  constructor
  · exact Leaks.eval
  · rintro ⟨v, hv, infinite⟩
    exact leaks_of_eval finite hv infinite

end LineCalc
