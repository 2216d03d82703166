import LineCalc.Proofs.Decimal.Adjacent
import LineCalc.Proofs.Decimal.Order

/-!
# Comparing doubles by their values

Finite doubles stand in the order of their exact values. The magnitude of a double is the double or
its opposite.

Results:
1. `lt_iff_exactValue`, `le_iff_exactValue`: the order of finite doubles.
2. `exactValue_abs`: the value of the magnitude of a double.
3. `Nearest.le_iff`: what a double next to a number from above tells of the number.
-/

namespace LineCalc.Decimal

open Float.Model (UnpackedFloat)
open Float.Model.UnpackedFloat

variable {x y : Float} {q : ℚ}

/-! ## The order -/

/-- Of two finite doubles the lesser one is that with the lesser value. -/
theorem lt_iff_exactValue (finite : x.isFinite = true) (finite' : y.isFinite = true) :
    x < y ↔ exactValue x < exactValue y := by
  rw [lt_unpacked, UnpackedFloat.lt, compare_exactValue finite finite', beq_iff_eq,
    Option.some_inj, compare_lt_iff_lt]

theorem le_iff_exactValue (finite : x.isFinite = true) (finite' : y.isFinite = true) :
    x ≤ y ↔ exactValue x ≤ exactValue y := by
  rw [le_iff, lt_iff_exactValue finite' finite, not_lt]
  exact and_iff_right ⟨not_isNaN_of_isFinite finite, not_isNaN_of_isFinite finite'⟩

/-! ## Magnitudes -/

/-- The magnitude of a double is the double or its opposite. -/
theorem abs_of_binary? {b : Binary} (exact : binary? x = some b) :
    x.abs = if b.negative then -x else x := by
  have magnitude : x.abs = Float.ofModel (.pack x.toModel.unpack.abs) := rfl
  rw [binary?] at exact
  split at exact <;> cases exact <;> rename_i unpacked
  · rw [magnitude, unpacked, if_neg Bool.false_ne_true, ← ofModel_pack_unpack x, unpacked]
    rfl
  · rw [magnitude, unpacked, if_pos rfl, neg_eq, unpacked]
    rfl
  · rw [magnitude, unpacked, if_neg Bool.false_ne_true, ← ofModel_pack_unpack x, unpacked]
    rfl
  · rw [magnitude, unpacked, if_pos rfl, neg_eq, unpacked]
    rfl

theorem binary?_abs {b : Binary} (exact : binary? x = some b) :
    binary? x.abs = some { b with negative := false } := by
  obtain ⟨negative, m, e⟩ := b
  rw [abs_of_binary? exact]
  cases negative with
  | false => exact exact
  | true =>
    rw [if_pos rfl, binary?_neg, exact]
    rfl

theorem abs_value (b : Binary) : |b.value| = b.fraction.1 / b.fraction.2 := by
  have nonneg : (0 : ℚ) ≤ b.mantissa * 2 ^ b.exponent := by positivity
  rw [fraction_value, Binary.value]
  split
  · rw [abs_neg, abs_of_nonneg nonneg]
  · rw [abs_of_nonneg nonneg]

theorem isFinite_abs (finite : x.isFinite = true) : x.abs.isFinite = true := by
  obtain ⟨b, exact⟩ := Option.isSome_iff_exists.mp ((binary?_isSome x).trans finite)
  rw [← binary?_isSome, binary?_abs exact]
  rfl

theorem exactValue_abs (finite : x.isFinite = true) : exactValue x.abs = |exactValue x| := by
  obtain ⟨b, exact⟩ := Option.isSome_iff_exists.mp ((binary?_isSome x).trans finite)
  rw [exactValue_of_binary? exact, abs_value, fraction_value,
    exactValue_of_binary? (binary?_abs exact)]
  rfl

/-- A double next to a number from above has just the doubles above it that the number has. -/
theorem Nearest.le_iff (h : Nearest q x) (above : q ≤ exactValue x) (finite : y.isFinite = true) :
    x ≤ y ↔ q ≤ exactValue y := by
  rw [le_iff_exactValue h.finite finite]
  refine ⟨above.trans, fun le => ?_⟩
  by_contra less
  have near := h.near y finite
  rw [abs_of_nonpos (by linarith), abs_of_nonpos (by linarith)] at near
  linarith

end LineCalc.Decimal
