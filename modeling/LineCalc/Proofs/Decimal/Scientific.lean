import LineCalc.Decimal.Numeral
import LineCalc.Proofs.Decimal.Rounding
import LineCalc.Proofs.Decimal.Sign

/-!
# Doubles from decimals

The double nearest to a decimal is computed in one of three ways: from small digits and a power of
ten that are doubles both, by one product or quotient of doubles, and else by a product or a quotient
of integers. Each rounds once, so a decimal in the interval around a double is read as that double.

Results:
1. `unpack_pack_canonical`: a finite double is told by its bits.
2. `not_isNaN_nearestFloat`: a decimal is a number.
3. `roundedFrom_nearestFloat`: a decimal is rounded once, unless it is far out of range.
4. `nearestFloat_in_interval`: a decimal in the interval around a double is read as it.
-/

namespace LineCalc.Decimal

open Float.Model (UnpackedFloat Format totalExponent)
open Float.Model.UnpackedFloat

variable {m n : Nat} {e : Int}

/-! ## Bits -/

theorem finite_congr {s : Sign} {m' : Nat} {e' : Int} {pos : 0 < m} (mantissa : m = m')
    (exponent : e = e') :
    UnpackedFloat.finite s m e pos = .finite s m' e' (mantissa ▸ pos) := by
  subst mantissa exponent
  rfl

/-- A number with exponent bits has one bit more in front of those of its mantissa. -/
theorem unpack_normal {b : Nat} (s : Sign) (low : 0 < b) (high : b < 2 ^ 11 - 1) (f : BitVec 52) :
    unpack .binary64 (packComponents .binary64 s (BitVec.ofNat 11 b) f) =
      .finite s (2 ^ 52 + f.toNat) (b - 1075) (by omega) := by
  have bits : (BitVec.ofNat 11 b).toNat = b := by
    rw [BitVec.toNat_ofNat, Nat.mod_eq_of_lt (by omega)]
  have number : BitVec.ofNat 11 b ≠ -1#11 := by
    intro special
    have all : b = 2 ^ 11 - 1 := by rw [← bits, special]; rfl
    omega
  have nonzero : BitVec.ofNat 11 b ≠ 0#11 := by
    intro zero
    have none : b = 0 := by rw [← bits, zero]; rfl
    omega
  have bias : (Format.binary64.exponentBias : Int) + (52 : Nat) = 1075 := by decide
  simp only [unpack, sign_packComponents, unpackMantissa_packComponents,
    unpackExponent_packComponents]
  rw [if_neg number, if_neg nonzero]
  exact finite_congr (toNat_append_one f) (by rw [bias, bits])

/-- A number without exponent bits has the least exponent. -/
theorem unpack_subnormal (s : Sign) {f : BitVec 52} (pos : 0 < f.toNat) :
    unpack .binary64 (packComponents .binary64 s 0#11 f) = .finite s f.toNat (-1074) pos := by
  have nonzero : f ≠ 0#52 := by
    rintro rfl
    exact absurd pos (by decide)
  simp only [unpack, sign_packComponents, unpackMantissa_packComponents,
    unpackExponent_packComponents]
  rw [if_neg (by decide), if_pos trivial, dif_neg nonzero]
  exact finite_congr rfl (by decide)

/-- The mantissa and the exponent of a finite double are told by its bits. -/
theorem unpack_pack_canonical (h : Canonical m e) (most : e ≤ greatestExponent) (s : Sign) :
    (Float.Model.pack (.finite s m e h.pos)).unpack = .finite s m e h.pos := by
  show unpack .binary64 (pack .binary64 (.finite s m e h.pos)) = _
  have bias : (Format.binary64.exponentBias : Int) + (52 : Nat) = 1075 := by decide
  have most : e ≤ 971 := most
  have least := h.least
  have small := h.small
  unfold pack
  simp only
  split
  · omega
  · generalize biased : (e + Format.binary64.exponentBias + (52 : Nat)).toNat = b
    split
    · next normal =>
      have long := (Nat.log2_eq_iff (Nat.ne_of_gt h.pos)).mp (Nat.succ.inj normal)
      rw [unpack_normal s (by omega) (by omega)]
      refine finite_congr ?_ (by omega)
      rw [BitVec.toNat_ofNat]
      omega
    · next subnormal =>
      have subnormal : m.log2 ≠ 52 := fun normal => subnormal (congrArg Nat.succ normal)
      have short : m < 2 ^ 52 := by
        have bits := (Nat.log2_lt (Nat.ne_of_gt h.pos)).mpr small
        exact (Nat.log2_lt (Nat.ne_of_gt h.pos)).mp (by omega)
      have mantissa : (BitVec.ofNat 52 m).toNat = m := by
        rw [BitVec.toNat_ofNat, Nat.mod_eq_of_lt short]
      have pos : 0 < (BitVec.ofNat 52 m).toNat := mantissa.symm ▸ h.pos
      refine (unpack_subnormal s pos).trans (finite_congr mantissa ?_)
      exact (h.form.resolve_left subnormal).symm

/-! ## Small digits and powers of ten -/

/-- A small positive integer is a double, its mantissa filled up with zeros. -/
theorem unpack_toFloat (pos : 0 < n) (short : n < 2 ^ 53) :
    ∃ k : Nat, ∃ pos', n.toUInt64.toFloat.toModel.unpack =
      .finite .positive (n * 2 ^ k) (-k) pos' ∧ 2 ^ 52 ≤ n * 2 ^ k := by
  have canonical := canonical_of_short pos short
  have long := (Nat.log2_eq_iff (Nat.ne_of_gt canonical.pos)).mp (log2_filled pos short)
  refine ⟨_, canonical.pos, ?_, long.1⟩
  have word : n.toUInt64.toNat = n := by
    show n % 2 ^ 64 = n
    exact Nat.mod_eq_of_lt (by omega)
  show (Float.Model.pack (UnpackedFloat.ofInt .binary64 n.toUInt64.toNat)).unpack = _
  have positive : compare (n : Int) 0 = .gt := Int.compare_eq_gt.mpr (by omega)
  rw [word, UnpackedFloat.ofInt, UnpackedFloat.normalize, positive]
  simp only [Int.toNat_natCast]
  rw [canonical.round_short]
  have most : (-(52 - n.log2 : Nat) : Int) ≤ greatestExponent := by
    rw [greatestExponent]
    omega
  exact unpack_pack_canonical canonical most .positive

/-- A number whose mantissa has 53 bits, and its value. -/
def isPower (i : Nat) : UnpackedFloat → Bool
  | .finite .positive m e _ => m * 2 ^ e.toNat == 10 ^ i * 2 ^ (-e).toNat && 2 ^ 52 ≤ m
  | _ => false

/-- The powers of ten that are told are doubles. -/
theorem isPower_powersOfTen : ∀ i : Fin Float.exactlyRepresentablePowersOfTen.size,
    isPower i Float.exactlyRepresentablePowersOfTen[i].toModel.unpack = true := by
  decide +kernel

theorem zpow_eq_div {b : ℚ} (nonzero : b ≠ 0) (e : Int) :
    b ^ e = b ^ e.toNat / b ^ (-e).toNat := by
  have parts : e = (e.toNat : Int) - ((-e).toNat : Int) := by omega
  conv_lhs => rw [parts, zpow_sub₀ nonzero, zpow_natCast, zpow_natCast]

theorem unpack_powerOfTen {i : Nat} (told : i < Float.exactlyRepresentablePowersOfTen.size) :
    ∃ m e pos, Float.exactlyRepresentablePowersOfTen[i].toModel.unpack =
      .finite .positive m e pos ∧ (m : ℚ) * 2 ^ e = 10 ^ i ∧ 2 ^ 52 ≤ m := by
  have power := isPower_powersOfTen ⟨i, told⟩
  change isPower i Float.exactlyRepresentablePowersOfTen[i].toModel.unpack = true at power
  cases unpacked : Float.exactlyRepresentablePowersOfTen[i].toModel.unpack with
  | notANumber | zero | infinity =>
    rw [unpacked] at power
    cases power
  | finite s m e pos =>
    rw [unpacked] at power
    cases s with
    | negative => cases power
    | positive =>
      simp only [isPower, Bool.and_eq_true, beq_iff_eq, decide_eq_true_eq] at power
      obtain ⟨value, long⟩ := power
      refine ⟨m, e, pos, rfl, ?_, long⟩
      have value : (m * 2 ^ e.toNat : ℚ) = 10 ^ i * 2 ^ (-e).toNat := by exact_mod_cast value
      have nonzero : (2 : ℚ) ^ (-e).toNat ≠ 0 := by positivity
      rw [zpow_eq_div two_ne_zero, ← mul_div_assoc, value, mul_div_cancel_right₀ _ nonzero]

/-! ## Numbers -/

theorem not_isNaN_mul_finite {u v : UnpackedFloat} (left : u.isFinite = true)
    (right : v.isFinite = true) : (u.mul .binary64 v).isNaN = false := by
  cases u with
  | notANumber | infinity => cases left
  | zero =>
    cases v with
    | notANumber | infinity => cases right
    | zero | finite => rfl
  | finite =>
    cases v with
    | notANumber | infinity => cases right
    | zero => rfl
    | finite => exact not_isNaN_round _ _ _ _

theorem not_isNaN_div_finite {u : UnpackedFloat} (left : u.isFinite = true) (s : Sign) (m : Nat)
    (e : Int) (pos : 0 < m) : (u.div .binary64 (.finite s m e pos)).isNaN = false := by
  cases u with
  | notANumber | infinity => cases left
  | zero => rfl
  | finite => exact not_isNaN_round _ _ _ _

theorem not_isNaN_ofScientific (digits : Nat) (exponent : Int) :
    (UnpackedFloat.ofScientific .binary64 digits exponent).isNaN = false := by
  unfold UnpackedFloat.ofScientific
  split
  · rfl
  · split
    · rfl
    · split
      · rfl
      · split
        · exact not_isNaN_mul_finite rfl rfl
        · exact not_isNaN_div_finite rfl _ _ _ _

/-- A decimal is a number, be it infinite. -/
theorem not_isNaN_nearestFloat (digits : Nat) (exponent : Int) :
    (nearestFloat digits exponent).isNaN = false := by
  rw [nearestFloat, Float.ofScientific]
  split
  · next small =>
    have told : exponent.natAbs < Float.exactlyRepresentablePowersOfTen.size :=
      Nat.lt_succ_of_le small.2
    obtain ⟨m, e, pos, power, -⟩ := unpack_powerOfTen told
    have finite : digits.toUInt64.toFloat.toModel.unpack.isFinite = true := by
      by_cases zero : digits = 0
      · rw [zero]
        rfl
      · obtain ⟨k, pos, eq, -⟩ := unpack_toFloat (Nat.pos_of_ne_zero zero) small.1
        rw [eq]
        rfl
    dsimp only
    split
    · refine not_isNaN_pack (u := UnpackedFloat.div .binary64 _ _) ?_
      rw [power]
      exact not_isNaN_div_finite finite _ _ _ _
    · refine not_isNaN_pack (u := UnpackedFloat.mul .binary64 _ _) ?_
      rw [power]
      exact not_isNaN_mul_finite finite rfl
  · exact not_isNaN_pack (not_isNaN_ofScientific _ _)

/-! ## Rounding decimals -/

variable {digits : Nat} {exponent : Int}

/-- A double is computed from a number by rounding it once, as a fraction with enough bits. -/
def RoundedFrom (y : ℚ) (x : Float) : Prop :=
  ∃ (p q : Nat) (f : Int), 0 < q ∧ (p / q : ℚ) * 2 ^ f = y ∧
    f ≤ Format.binary64.targetExponent (totalExponent (p / q) f) ∧
    x = .ofModel (.pack
      (roundWithAccuracy .binary64 .positive (p / q) f (accuracyOfFraction (p % q) q)))

section

variable {m₁ m₂ : Nat} (e₁ e₂ : Int) (pos₁ : 0 < m₁) (pos₂ : 0 < m₂)

/-- A product of positive doubles is rounded once, if one of them has all bits. -/
theorem roundedFrom_mul (long : 2 ^ 52 ≤ m₁ * m₂) :
    RoundedFrom (m₁ * 2 ^ e₁ * (m₂ * 2 ^ e₂)) (.ofModel (.pack (UnpackedFloat.mul .binary64
      (.finite .positive m₁ e₁ pos₁) (.finite .positive m₂ e₂ pos₂)))) := by
  have bits := (Nat.le_log2 (Nat.ne_of_gt (Nat.mul_pos pos₁ pos₂))).mpr long
  refine ⟨m₁ * m₂, 1, e₁ + e₂, Nat.one_pos, ?_, ?_, ?_⟩
  · rw [zpow_add₀ two_ne_zero]
    push_cast
    ring
  · rw [targetExponent_eq, Nat.div_one]
    omega
  · rw [Nat.div_one, Nat.mod_one]
    rfl

theorem roundedFrom_div :
    RoundedFrom (m₁ * 2 ^ e₁ / (m₂ * 2 ^ e₂)) (.ofModel (.pack (UnpackedFloat.div .binary64
      (.finite .positive m₁ e₁ pos₁) (.finite .positive m₂ e₂ pos₂)))) := by
  obtain ⟨k, quotient, enough⟩ := divCore_eq e₁ e₂ pos₁ pos₂
  refine ⟨m₁ * 2 ^ k, m₂, e₁ - e₂ - k, pos₂, ?_, enough, ?_⟩
  · rw [zpow_sub₀ two_ne_zero, zpow_sub₀ two_ne_zero, zpow_natCast]
    push_cast
    field_simp
  · rw [div, quotient]
    rfl

end

/-- Small digits and a small power of ten are doubles, and only their product or quotient is
rounded. -/
theorem roundedFrom_small (digitsPos : 0 < digits)
    (small : digits < 2 ^ 53 ∧ exponent.natAbs ≤ 22) :
    RoundedFrom (digits * 10 ^ exponent) (nearestFloat digits exponent) := by
  obtain ⟨k, pos₁, first, long₁⟩ := unpack_toFloat digitsPos small.1
  have told : exponent.natAbs < Float.exactlyRepresentablePowersOfTen.size :=
    Nat.lt_succ_of_le small.2
  obtain ⟨m₂, e₂, pos₂, second, power, long₂⟩ := unpack_powerOfTen told
  have whole : ((digits * 2 ^ k : Nat) : ℚ) * 2 ^ (-(k : Int)) = digits := by
    rw [zpow_neg, zpow_natCast]
    push_cast
    field_simp
  rw [nearestFloat, Float.ofScientific, dif_pos small]
  dsimp only
  split
  · next negative =>
    have negative := of_decide_eq_true negative
    have opposite : exponent = -(exponent.natAbs : Int) := by omega
    have quotient := roundedFrom_div (-k) e₂ pos₁ pos₂
    rw [whole, power, ← first, ← second, ← zpow_natCast, div_eq_mul_inv, ← zpow_neg,
      ← opposite] at quotient
    exact quotient
  · next nonneg =>
    have nonneg : ¬exponent < 0 := fun negative => nonneg (decide_eq_true negative)
    have same : (exponent.natAbs : Int) = exponent := by omega
    have product := roundedFrom_mul (-k) e₂ pos₁ pos₂
      (long₁.trans (Nat.le_mul_of_pos_right _ pos₂))
    rw [whole, power, ← first, ← second, ← zpow_natCast, same] at product
    exact product

/-- Other digits are a product or a quotient of integers. -/
theorem roundedFrom_ofScientific (digitsPos : 0 < digits) (notGreat : ¬exponent > 2 ^ 11)
    (notSmall : ¬exponent < -(2 ^ 11 + digits.log2)) :
    RoundedFrom (digits * 10 ^ exponent)
      (.ofModel (.pack (UnpackedFloat.ofScientific .binary64 digits exponent))) := by
  unfold UnpackedFloat.ofScientific
  rw [dif_neg (Nat.ne_of_gt digitsPos), if_neg notGreat, if_neg notSmall]
  split
  · next nonneg =>
    obtain ⟨i, rfl⟩ := Int.eq_ofNat_of_zero_le nonneg
    have filled : digits <<< Format.binary64.mantissaBits = digits * 2 ^ 53 := Nat.shiftLeft_eq _ _
    have long : 2 ^ 52 ≤ digits <<< Format.binary64.mantissaBits * 10 ^ (i : Int).toNat := by
      rw [filled]
      calc 2 ^ 52 ≤ 1 * 2 ^ 53 * 1 := by decide
        _ ≤ digits * 2 ^ 53 * 10 ^ (i : Int).toNat :=
          Nat.mul_le_mul (Nat.mul_le_mul_right _ digitsPos) (Nat.pow_pos (by decide))
    have value : ((digits <<< Format.binary64.mantissaBits : Nat) : ℚ) *
        2 ^ (-(Format.binary64.mantissaBits : Int)) * ((10 ^ (i : Int).toNat : Nat) * 2 ^ (0 : Int)) =
          digits * 10 ^ (i : Int) := by
      have bits : Format.binary64.mantissaBits = 53 := rfl
      rw [filled, bits, zpow_zero, Int.toNat_natCast, zpow_natCast, zpow_neg]
      push_cast
      field_simp
    rw [← value]
    exact roundedFrom_mul _ _ _ _ long
  · next negative =>
    obtain ⟨i, rfl⟩ : ∃ i : Nat, exponent = -(i : Int) := ⟨exponent.natAbs, by omega⟩
    have value : (digits : ℚ) * 2 ^ (0 : Int) /
        ((10 ^ (-(-(i : Int))).toNat : Nat) * 2 ^ (0 : Int)) = digits * 10 ^ (-(i : Int)) := by
      rw [neg_neg, Int.toNat_natCast, zpow_zero, mul_one, mul_one, zpow_neg, zpow_natCast]
      push_cast
      rfl
    rw [← value]
    exact roundedFrom_div _ _ _ _

theorem nearestFloat_of_large (large : ¬(digits < 2 ^ 53 ∧ exponent.natAbs ≤ 22)) :
    nearestFloat digits exponent =
      .ofModel (.pack (UnpackedFloat.ofScientific .binary64 digits exponent)) := by
  have same : (if decide (exponent < 0) = true then Int.negOfNat exponent.natAbs
      else Int.ofNat exponent.natAbs) = exponent := by
    split
    · next negative =>
      have negative := of_decide_eq_true negative
      rw [Int.negOfNat_eq]
      show -(exponent.natAbs : Int) = exponent
      omega
    · next nonneg =>
      have nonneg : ¬exponent < 0 := fun negative => nonneg (decide_eq_true negative)
      show (exponent.natAbs : Int) = exponent
      omega
  rw [nearestFloat, Float.ofScientific, dif_neg large]
  dsimp only
  rw [same]
  rfl

theorem nearestFloat_zero (exponent : Int) : nearestFloat 0 exponent = 0 := by
  by_cases small : 0 < 2 ^ 53 ∧ exponent.natAbs ≤ 22
  · have told : exponent.natAbs < Float.exactlyRepresentablePowersOfTen.size :=
      Nat.lt_succ_of_le small.2
    obtain ⟨m, e, pos, power, -⟩ := unpack_powerOfTen told
    rw [nearestFloat, Float.ofScientific, dif_pos small]
    dsimp only
    split
    · show Float.ofModel (.pack (UnpackedFloat.div .binary64 (.zero .positive) _)) = 0
      rw [power]
      rfl
    · show Float.ofModel (.pack (UnpackedFloat.mul .binary64 (.zero .positive) _)) = 0
      rw [power]
      rfl
  · rw [nearestFloat_of_large small]
    rfl

/-- A decimal is rounded once, unless its power of ten is far beyond the doubles. -/
theorem roundedFrom_nearestFloat (digitsPos : 0 < digits) (notGreat : ¬exponent > 2 ^ 11)
    (notSmall : ¬exponent < -(2 ^ 11 + digits.log2)) :
    RoundedFrom (digits * 10 ^ exponent) (nearestFloat digits exponent) := by
  by_cases small : digits < 2 ^ 53 ∧ exponent.natAbs ≤ 22
  · exact roundedFrom_small digitsPos small
  · rw [nearestFloat_of_large small]
    exact roundedFrom_ofScientific digitsPos notGreat notSmall

/-- Beyond a power of ten that is too great a decimal is greater than the doubles. -/
theorem beyond_of_great (digitsPos : 0 < digits) (great : exponent > 2 ^ 11) :
    (2 : ℚ) ^ (1025 : Int) ≤ digits * 10 ^ exponent := by
  have one : (1 : ℚ) ≤ digits := by exact_mod_cast digitsPos
  calc (2 : ℚ) ^ (1025 : Int) ≤ 2 ^ exponent := zpow_le_zpow_right₀ one_le_two (by omega)
    _ ≤ 10 ^ exponent := zpow_le_zpow_left₀ (by omega) zero_le_two (by norm_num)
    _ ≤ digits * 10 ^ exponent := le_mul_of_one_le_left (by positivity) one

/-- Below a power of ten that is too small a decimal is less than half the least double. -/
theorem below_of_small (small : exponent < -(2 ^ 11 + digits.log2)) :
    (digits : ℚ) * 10 ^ exponent < 2 ^ (-1075 : Int) := by
  have bits : (digits : ℚ) < 2 ^ (digits.log2 + 1 : Int) := by exact_mod_cast Nat.lt_log2_self
  have lower : (10 : ℚ) ^ exponent ≤ 2 ^ exponent := by
    obtain ⟨i, rfl⟩ : ∃ i : Nat, exponent = -(i : Int) := ⟨exponent.natAbs, by omega⟩
    rw [zpow_neg, zpow_neg, zpow_natCast, zpow_natCast]
    exact inv_anti₀ (by positivity) (pow_le_pow_left₀ zero_le_two (by norm_num) i)
  calc (digits : ℚ) * 10 ^ exponent < 2 ^ (digits.log2 + 1 : Int) * 10 ^ exponent :=
        mul_lt_mul_of_pos_right bits (by positivity)
    _ ≤ 2 ^ (digits.log2 + 1 : Int) * 2 ^ exponent :=
        mul_le_mul_of_nonneg_left lower (by positivity)
    _ = 2 ^ (digits.log2 + 1 + exponent) := (zpow_add₀ two_ne_zero _ _).symm
    _ ≤ 2 ^ (-1075 : Int) := zpow_le_zpow_right₀ one_le_two (by omega)

/-! ## Decimals in intervals -/

/-- A number in the interval around a double is at least half the least double, and less than twice
the power of two beyond the doubles. -/
theorem range_of_holds (h : Canonical m e) (most : e ≤ greatestExponent) {y : ℚ}
    (holds : (Rounding.around m e).Holds y) : 2 ^ (-1075 : Int) ≤ y ∧ y < 2 ^ (1025 : Int) := by
  obtain ⟨z, rfl⟩ : ∃ z : ℚ, y = z * 2 ^ e :=
    ⟨y / 2 ^ e, (div_mul_cancel₀ _ (zpow_ne_zero e two_ne_zero)).symm⟩
  obtain ⟨nearest, -⟩ := nearest_of_holds h.pos holds
  have one : (1 : ℚ) ≤ m := by exact_mod_cast h.pos
  have limit : (m : ℚ) + 1 ≤ 2 ^ 53 := by exact_mod_cast h.small
  have low : (2 : ℚ) ^ (-1 : Int) ≤ z := by
    norm_num
    linarith [nearest.low]
  have high : z < 2 ^ (54 : Int) := by
    norm_num at limit ⊢
    linarith [nearest.high]
  have most : e ≤ 971 := most
  have least := h.least
  constructor
  · calc (2 : ℚ) ^ (-1075 : Int) = 2 ^ (-1 : Int) * 2 ^ (-1074 : Int) := by
          rw [← zpow_add₀ two_ne_zero]
          norm_num
      _ ≤ z * 2 ^ e := by
        refine mul_le_mul low ?_ (by positivity) (by linarith [nearest.low])
        exact zpow_le_zpow_right₀ one_le_two least
  · calc z * 2 ^ e < 2 ^ (54 : Int) * 2 ^ e := mul_lt_mul_of_pos_right high (by positivity)
      _ ≤ 2 ^ (54 : Int) * 2 ^ (971 : Int) := by
        refine mul_le_mul_of_nonneg_left ?_ (by positivity)
        exact zpow_le_zpow_right₀ one_le_two most
      _ = 2 ^ (1025 : Int) := by
        rw [← zpow_add₀ two_ne_zero]
        norm_num

/-- A decimal in the interval around a double is not zero. -/
theorem digits_pos (h : Canonical m e) (most : e ≤ greatestExponent)
    (holds : (Rounding.around m e).Holds (digits * 10 ^ exponent)) : 0 < digits := by
  have low := (range_of_holds h most holds).1
  refine Nat.pos_of_ne_zero fun zero => ?_
  have above : (0 : ℚ) < 2 ^ (-1075 : Int) := by positivity
  rw [zero, Nat.cast_zero, zero_mul] at low
  linarith

section

variable {x : Float} {pos : 0 < m}
variable (unpacked : x.toModel.unpack = .finite .positive m e pos)
variable (holds : (Rounding.around m e).Holds (digits * 10 ^ exponent))

include unpacked holds

/-- A decimal in the interval around a double is read as the double. -/
theorem nearestFloat_in_interval : nearestFloat digits exponent = x := by
  have h := canonical_of_unpack unpacked
  have most := exponent_of_unpack unpacked
  have digitsPos := digits_pos h most holds
  obtain ⟨low, high⟩ := range_of_holds h most holds
  have notGreat : ¬exponent > 2 ^ 11 := fun great =>
    absurd high (not_lt.mpr (beyond_of_great digitsPos great))
  have notSmall : ¬exponent < -(2 ^ 11 + digits.log2) := fun small =>
    absurd low (not_le.mpr (below_of_small small))
  obtain ⟨p, q, f, posQ, value, enough, rounded⟩ :=
    roundedFrom_nearestFloat digitsPos notGreat notSmall
  rw [← value] at holds
  rw [rounded, round_fraction h .positive posQ holds enough, ← unpacked]
  exact ofModel_pack_unpack x

end

end LineCalc.Decimal
