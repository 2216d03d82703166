import Mathlib
import LineCalc.Decimal.Integer
import LineCalc.Decimal.Remainder

/-!
# Doubles

A double is finite, infinite or no number at all. The finite ones are those with an exact value, and
of these only zeros compare equal to zero. Any two doubles are in order unless one is no number.
-/

namespace LineCalc.Decimal

open Float.Model (UnpackedFloat)

/-! ## Kinds of doubles -/

theorem isNaN_eq (x : Float) : x.isNaN = x.toModel.unpack.isNaN := rfl

theorem isInf_eq (x : Float) : x.isInf = x.toModel.unpack.isInf := rfl

theorem isFinite_eq (x : Float) : x.isFinite = x.toModel.unpack.isFinite := rfl

theorem unpack_zero : (0 : Float).toModel.unpack = .zero .positive := rfl

theorem binary?_isSome (x : Float) : (binary? x).isSome = x.isFinite := by
  rw [binary?, isFinite_eq]
  cases x.toModel.unpack with
  | notANumber => rfl
  | infinity sign => rfl
  | zero sign => cases sign <;> rfl
  | finite sign m e pos => cases sign <;> rfl

theorem isInf_of_isNaN {x : Float} (nan : x.isNaN = true) : x.isInf = false := by
  rw [isNaN_eq] at nan
  rw [isInf_eq]
  cases h : x.toModel.unpack with
  | notANumber => rfl
  | infinity | zero | finite =>
    rw [h] at nan
    cases nan

/-- A number without an exact value is infinite. -/
theorem isInf_of_binary? {x : Float} (h : binary? x = none) (number : x.isNaN = false) :
    x.isInf = true := by
  have infinite : x.toModel.unpack.isFinite = false := by
    rw [← isFinite_eq, ← binary?_isSome, h]
    rfl
  rw [isNaN_eq] at number
  rw [isInf_eq]
  cases h : x.toModel.unpack with
  | infinity => rfl
  | notANumber =>
    rw [h] at number
    cases number
  | zero | finite =>
    rw [h] at infinite
    cases infinite

theorem isFinite_of_binary? {x : Float} {b : Binary} (h : binary? x = some b) :
    x.toModel.unpack.isFinite = true := by
  rw [← isFinite_eq, ← binary?_isSome, h]
  rfl

theorem not_isInf_of_binary? {x : Float} {b : Binary} (h : binary? x = some b) :
    x.isInf = false := by
  have finite := isFinite_of_binary? h
  rw [isInf_eq]
  cases h : x.toModel.unpack with
  | infinity =>
    rw [h] at finite
    cases finite
  | notANumber | zero | finite => rfl

theorem not_isInf_of_isFinite {x : Float} (finite : x.isFinite = true) : x.isInf = false := by
  rw [← binary?_isSome] at finite
  obtain ⟨b, whole⟩ := Option.isSome_iff_exists.mp finite
  exact not_isInf_of_binary? whole

theorem not_isNaN_of_binary? {x : Float} {b : Binary} (h : binary? x = some b) :
    x.isNaN = false := by
  have finite := isFinite_of_binary? h
  rw [isNaN_eq]
  cases h : x.toModel.unpack with
  | notANumber =>
    rw [h] at finite
    cases finite
  | infinity | zero | finite => rfl

/-- Only a double that is equal to zero has the exact value zero. -/
theorem mantissa_ne_zero {x : Float} {b : Binary} (h : binary? x = some b)
    (nonzero : (x == 0) = false) : b.mantissa ≠ 0 := by
  have compare : x.toModel.unpack.beq (.zero .positive) = false := by
    rw [← unpack_zero]
    exact nonzero
  unfold binary? at h
  split at h <;> cases h
  · next pos _ => exact Nat.pos_iff_ne_zero.mp pos
  · next pos _ => exact Nat.pos_iff_ne_zero.mp pos
  · next zero => simp [zero, UnpackedFloat.beq, UnpackedFloat.compare] at compare
  · next zero => simp [zero, UnpackedFloat.beq, UnpackedFloat.compare] at compare

/-! ## Order -/

/-- Two doubles compare the other way round if they are exchanged. -/
theorem compare_swap (u v : UnpackedFloat) : v.compare u = (u.compare v).map Ordering.swap := by
  have signs (s t : UnpackedFloat.Sign) : compare t s = (compare s t).swap := by
    cases s <;> cases t <;> rfl
  have parts (m n : Nat) (e f : Int) : (compare f e).then (compare n m) =
      ((compare e f).then (compare m n)).swap := by
    rw [Ordering.swap_then, ← Std.OrientedCmp.eq_swap, ← Std.OrientedCmp.eq_swap]
  cases u with
  | notANumber => cases v <;> rfl
  | infinity s => cases v with
    | infinity t => exact congrArg some (signs s t)
    | notANumber | zero | finite => cases s <;> rfl
  | zero s => cases v with
    | infinity t | finite t => cases t <;> rfl
    | notANumber | zero => rfl
  | finite s m e => cases v with
    | notANumber => rfl
    | infinity t => cases t <;> rfl
    | zero t => cases s <;> rfl
    | finite t n f =>
      cases s <;> cases t
      · exact congrArg (fun o => some o.swap) (parts m n e f)
      · rfl
      · rfl
      · exact congrArg some (parts m n e f)

theorem compare_isSome (u v : UnpackedFloat) :
    (u.compare v).isSome = (!u.isNaN && !v.isNaN) := by
  cases u with
  | notANumber => rfl
  | infinity s => cases v <;> cases s <;> rfl
  | zero s => cases v with
    | infinity t | finite t => cases t <;> rfl
    | notANumber | zero => rfl
  | finite s m e => cases v with
    | notANumber => cases s <;> rfl
    | infinity t => cases t <;> rfl
    | zero t => cases s <;> rfl
    | finite t n f => cases s <;> cases t <;> rfl

/-- Of two numbers one is at most the other exactly if it is not greater. -/
theorem le_iff {x y : Float} : x ≤ y ↔ (x.isNaN = false ∧ y.isNaN = false) ∧ ¬y < x := by
  show decide (x.toModel.unpack.le y.toModel.unpack = true) = true ↔
    _ ∧ ¬decide (y.toModel.unpack.lt x.toModel.unpack = true) = true
  rw [decide_eq_true_iff, decide_eq_true_iff, isNaN_eq, isNaN_eq, UnpackedFloat.le,
    UnpackedFloat.lt, compare_swap x.toModel.unpack]
  have numbers := compare_isSome x.toModel.unpack y.toModel.unpack
  cases order : x.toModel.unpack.compare y.toModel.unpack with
  | none =>
    rw [order, Option.isSome_none, eq_comm, Bool.and_eq_false_iff] at numbers
    simp only [Option.any_none, Bool.false_eq_true, false_iff, not_and]
    rintro ⟨left, right⟩
    simp [left, right] at numbers
  | some o =>
    rw [order, Option.isSome_some, eq_comm, Bool.and_eq_true] at numbers
    cases o <;> simp_all
/-! ## Remainders -/

/-- By a number that is not zero, only infinite numbers have no remainder. -/
theorem remainder?_eq_none_iff {x y : Float} (nonzero : (y == 0) = false) :
    remainder? x y = none ↔ x.isInf = true ∧ y.isNaN = false := by
  unfold remainder?
  cases nanLeft : x.isNaN with
  | true => simp [isInf_of_isNaN nanLeft]
  | false =>
    cases nanRight : y.isNaN with
    | true => simp
    | false =>
      cases left : binary? x with
      | none => simp [isInf_of_binary? left nanLeft]
      | some a =>
        have finite : x.isInf = false := not_isInf_of_binary? left
        cases right : binary? y with
        | none => simp [finite]
        | some b => simp [finite, mantissa_ne_zero right nonzero]

end LineCalc.Decimal
