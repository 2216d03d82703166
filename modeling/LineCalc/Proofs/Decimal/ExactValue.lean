import LineCalc.Decimal.ExactSum
import LineCalc.Proofs.Decimal.Shortest

/-!
# Exact values

The exact value of a finite double is a rational number, and so are the sums of such values. What is
not finite counts as zero here.

Results:
1. `exactValue_of_binary?`: the exact value of a double, by its parts.
2. `value_add`: exact numbers are added up without a rounding.
-/

namespace LineCalc

/-- The exact value of a finite double. -/
def Decimal.exactValue (x : Float) : ℚ :=
  (Decimal.binary? x).elim 0 fun b =>
    if b.negative then -(b.fraction.1 / b.fraction.2) else b.fraction.1 / b.fraction.2

namespace Decimal

open Float.Model (UnpackedFloat)
open Float.Model.UnpackedFloat

variable {x : Float} {a b : Binary} {m : Nat} {e : Int} {pos : 0 < m}

theorem exactValue_pos {x : Float} (finite : x.isFinite = true) (pos : 0 < x) :
    0 < exactValue x := by
  rw [isFinite_eq] at finite
  rw [pos_iff] at pos
  match unpacked : x.toModel.unpack with
  | .notANumber | .infinity _ =>
    rw [unpacked] at finite
    cases finite
  | .zero _ | .finite .negative .. =>
    rw [unpacked] at pos
    exact pos.elim
  | .finite .positive m e nonzero =>
    have exact : binary? x = some ⟨false, m, e⟩ := by rw [binary?, unpacked]
    have numerator : 0 < (Binary.fraction ⟨false, m, e⟩).1 :=
      Nat.mul_pos nonzero (Nat.two_pow_pos _)
    have denominator : 0 < (Binary.fraction ⟨false, m, e⟩).2 := Nat.two_pow_pos _
    rw [exactValue, exact]
    exact div_pos (Nat.cast_pos.mpr numerator) (Nat.cast_pos.mpr denominator)

/-! ## Exact numbers -/

/-- The value of an exact number. -/
def Binary.value (b : Binary) : ℚ :=
  if b.negative then -(b.mantissa * 2 ^ b.exponent) else b.mantissa * 2 ^ b.exponent

theorem exactValue_of_binary? (exact : binary? x = some b) : exactValue x = b.value := by
  rw [exactValue, exact, Option.elim_some, fraction_value, Binary.value]

theorem binary?_of_unpack {s : Sign} (unpacked : x.toModel.unpack = .finite s m e pos) :
    binary? x = some ⟨s == .negative, m, e⟩ := by
  cases s <;> rw [binary?, unpacked] <;> rfl

theorem exactValue_zero : exactValue 0 = 0 := by
  have parts : binary? 0 = some ⟨false, 0, 0⟩ := rfl
  rw [exactValue_of_binary? parts]
  simp [Binary.value]

theorem value_neg (b : Binary) : b.neg.value = -b.value := by
  obtain ⟨negative, m, e⟩ := b
  cases negative <;> simp [Binary.value, Binary.neg]

theorem exactValue_neg (x : Float) : exactValue (-x) = -exactValue x := by
  cases exact : binary? x with
  | none => simp [exactValue, binary?_neg, exact]
  | some b =>
    have opposite : binary? (-x) = some b.neg := by rw [binary?_neg, exact, Option.map_some]
    rw [exactValue_of_binary? exact, exactValue_of_binary? opposite, value_neg]

/-- The value of an integer multiple of a power of two. -/
theorem value_ofInt (n : Int) (e : Int) : (Binary.ofInt n e).value = n * 2 ^ e := by
  have magnitude : (n.natAbs : ℚ) = |(n : ℚ)| := by rw [Nat.cast_natAbs, Int.cast_abs]
  simp only [Binary.ofInt, Binary.value, magnitude, decide_eq_true_eq]
  split
  · next negative =>
    have negative : (n : ℚ) < 0 := by exact_mod_cast negative
    rw [abs_of_neg negative, neg_mul, neg_neg]
  · next nonneg =>
    have nonneg : (0 : ℚ) ≤ n := by exact_mod_cast Int.not_lt.mp nonneg
    rw [abs_of_nonneg nonneg]

/-- The mantissa of a number at a lower exponent, with its sign. -/
def Binary.atExponent (b : Binary) (e : Int) : Int :=
  if b.negative then -(b.mantissa * twoTo (b.exponent - e).toNat : Int)
  else b.mantissa * twoTo (b.exponent - e).toNat

theorem value_atExponent (low : e ≤ b.exponent) : (b.atExponent e : ℚ) * 2 ^ e = b.value := by
  have steps : (2 : ℚ) ^ b.exponent = (twoTo (b.exponent - e).toNat : Nat) * 2 ^ e := by
    rw [twoTo, Nat.pow_eq, Nat.cast_pow, Nat.cast_two, ← zpow_natCast, ← zpow_add₀ two_ne_zero]
    congr 1
    omega
  rw [Binary.atExponent, Binary.value, steps]
  split <;> push_cast <;> ring

/-- Exact numbers are added up at the lower of their exponents. -/
theorem value_add (a b : Binary) : (a.add b).value = a.value + b.value := by
  let e := min a.exponent b.exponent
  have sum : a.add b = .ofInt (a.atExponent e + b.atExponent e) e := rfl
  rw [sum, value_ofInt, Int.cast_add, add_mul, value_atExponent (min_le_left _ _),
    value_atExponent (min_le_right _ _)]

end Decimal

end LineCalc
