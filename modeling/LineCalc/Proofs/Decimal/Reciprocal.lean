import LineCalc.Proofs.Decimal.Finite

/-!
# Reciprocals

One over the greatest finite double is far above the least positive one, so the reciprocal of a
positive finite double is positive. It need not be finite: the reciprocals of doubles that are close
to zero are infinite.

Results:
1. `round_finite`: rounding makes no zero of a number that is not below the least exponent.
2. `reciprocal_pos`: one over a positive finite double is positive.
-/

namespace LineCalc.Decimal

open Float.Model (UnpackedFloat Format totalExponent)
open Float.Model.UnpackedFloat

/-! ## Rounding -/

variable {m q k : Nat} {e : Int} {accuracy : Accuracy}

theorem mantissa_shiftRight (em : ExtendedMantissa) (k : Nat) :
    (em >>> k).mantissa = em.mantissa / 2 ^ k := by
  induction k with
  | zero => simp [HShiftRight.hShiftRight, Nat.repeat]
  | succ k ih =>
    show (em >>> k).mantissa / 2 = _
    rw [ih, Nat.div_div_eq_div_mul, Nat.pow_succ]

theorem mantissa_ofMantissaAndAccuracy :
    (ExtendedMantissa.ofMantissaAndAccuracy m accuracy).mantissa = m := by
  cases accuracy with
  | exact => rfl
  | inexact half => cases half <;> rfl

theorem le_roundToNearestEven : m ≤ accuracy.roundToNearestEven m := by
  cases accuracy with
  | exact => exact Nat.le_refl m
  | inexact half => cases half <;> simp [Accuracy.roundToNearestEven]

/-- From the least exponent on, a mantissa is shifted by the bits that it has too many. -/
theorem shiftToTargetExponent_eq (least : -1074 ≤ e) :
    shiftToTargetExponent .binary64 m e accuracy =
      (ExtendedMantissa.ofMantissaAndAccuracy m accuracy >>> (m.log2 - 52),
        e + (m.log2 - 52 : Nat)) := by
  have amount : (Format.binary64.targetExponent (totalExponent m e) - e).toNat = m.log2 - 52 := by
    rw [targetExponent_eq]
    omega
  rw [shiftToTargetExponent, shiftToExponent, amount]

/-- Without the bits that it has too many, a positive mantissa is positive and has at most 53
bits. -/
theorem excess_shifted (pos : 0 < m) :
    0 < m / 2 ^ (m.log2 - 52) ∧ m / 2 ^ (m.log2 - 52) < 2 ^ 53 := by
  constructor
  · refine Nat.div_pos ?_ (Nat.two_pow_pos _)
    calc 2 ^ (m.log2 - 52) ≤ 2 ^ m.log2 := Nat.pow_le_pow_right (by decide) (Nat.sub_le _ _)
      _ ≤ m := Nat.log2_self_le (Nat.ne_of_gt pos)
  · refine Nat.div_lt_of_lt_mul ?_
    calc m < 2 ^ (m.log2 + 1) := Nat.lt_log2_self
      _ ≤ 2 ^ (m.log2 - 52 + 53) := Nat.pow_le_pow_right (by decide) (by omega)
      _ = 2 ^ (m.log2 - 52) * 2 ^ 53 := Nat.pow_add 2 _ _

/-- Rounding makes no zero of a number that is not below the least exponent. -/
theorem round_finite (s : Sign) (pos : 0 < m) (least : -1074 ≤ e) :
    ∃ m' e' pos', roundWithAccuracy .binary64 s m e accuracy = .finite s m' e' pos' ∧
      m' < 2 ^ 53 ∧ -1074 ≤ e' := by
  let first := ExtendedMantissa.ofMantissaAndAccuracy m accuracy >>> (m.log2 - 52)
  have rounded : 0 < first.roundedMantissa := by
    have kept : first.mantissa = m / 2 ^ (m.log2 - 52) := by
      rw [mantissa_shiftRight, mantissa_ofMantissaAndAccuracy]
    exact Nat.lt_of_lt_of_le (kept ▸ (excess_shifted pos).1) le_roundToNearestEven
  have final := excess_shifted rounded
  have next : -1074 ≤ e + (m.log2 - 52 : Nat) := by omega
  refine ⟨_, e + (m.log2 - 52 : Nat) + (first.roundedMantissa.log2 - 52 : Nat), final.1, ?_,
    final.2, ?_⟩
  · simp only [roundWithAccuracy, shiftToTargetExponent_eq least, shiftToTargetExponent_eq next,
      mantissa_shiftRight, mantissa_ofMantissaAndAccuracy]
    rw [dif_neg (Nat.ne_of_gt final.1)]
  · omega

/-! ## Positive doubles -/

/-- A number above zero. -/
def IsPositive : UnpackedFloat → Prop
  | .infinity .positive | .finite .positive .. => True
  | .infinity .negative | .finite .negative .. | .zero _ | .notANumber => False

variable {x : Float}

theorem pos_iff : 0 < x ↔ IsPositive x.toModel.unpack := by
  show decide ((UnpackedFloat.zero .positive).lt x.toModel.unpack = true) = true ↔ _
  rw [decide_eq_true_iff]
  cases x.toModel.unpack with
  | notANumber => simp [UnpackedFloat.lt, UnpackedFloat.compare, IsPositive]
  | zero s => simp [UnpackedFloat.lt, UnpackedFloat.compare, IsPositive]
  | infinity s => cases s <;> simp [UnpackedFloat.lt, UnpackedFloat.compare, IsPositive]
  | finite s => cases s <;> simp [UnpackedFloat.lt, UnpackedFloat.compare, IsPositive]

theorem beq_zero_iff : (x == 0) = true ↔ ∃ s, x.toModel.unpack = .zero s := by
  show x.toModel.unpack.beq (.zero .positive) = true ↔ _
  cases x.toModel.unpack with
  | notANumber => simp [UnpackedFloat.beq, UnpackedFloat.compare]
  | zero s => simp [UnpackedFloat.beq, UnpackedFloat.compare]
  | infinity s => cases s <;> simp [UnpackedFloat.beq, UnpackedFloat.compare]
  | finite s => cases s <;> simp [UnpackedFloat.beq, UnpackedFloat.compare]

theorem beq_zero_of_pos (pos : 0 < x) : (x == 0) = false := by
  rw [Bool.eq_false_iff, ne_eq, beq_zero_iff]
  rintro ⟨s, zero⟩
  simp [pos_iff, zero, IsPositive] at pos

theorem nonneg_iff : 0 ≤ x ↔ (x == 0) = true ∨ 0 < x := by
  rw [beq_zero_iff, pos_iff]
  show decide ((UnpackedFloat.zero .positive).le x.toModel.unpack = true) = true ↔ _
  rw [decide_eq_true_iff]
  cases x.toModel.unpack with
  | notANumber => simp [UnpackedFloat.le, UnpackedFloat.compare, IsPositive]
  | zero s => simp [UnpackedFloat.le, UnpackedFloat.compare]
  | infinity s => cases s <;> simp [UnpackedFloat.le, UnpackedFloat.compare, IsPositive]
  | finite s => cases s <;> simp [UnpackedFloat.le, UnpackedFloat.compare, IsPositive]

/-- A finite double is zero or above it exactly if it is not below zero. -/
theorem nonneg_iff_not_neg (finite : x.isFinite = true) : 0 ≤ x ↔ ¬x < 0 := by
  rw [nonneg_iff, beq_zero_iff, pos_iff]
  rw [isFinite_eq] at finite
  show _ ↔ ¬decide (x.toModel.unpack.lt (.zero .positive) = true) = true
  rw [decide_eq_true_iff]
  cases unpacked : x.toModel.unpack with
  | notANumber | infinity =>
    rw [unpacked] at finite
    cases finite
  | zero s => simp [UnpackedFloat.lt, UnpackedFloat.compare]
  | finite s => cases s <;> simp [UnpackedFloat.lt, UnpackedFloat.compare, IsPositive]

/-! ## Bits -/

theorem unpackSign_packComponents {spec : Format} {sign : Sign}
    {exponent : BitVec spec.exponentBits} {mantissa : BitVec spec.mantissaBitsWithoutImplicit} :
    unpackSign (packComponents spec sign exponent mantissa) = sign.toBitVec := by
  ext i hi
  obtain rfl : i = 0 := by omega
  simp [unpackSign, packComponents, BitVec.getLsbD_eq_getElem, BitVec.getLsbD_append,
    BitVec.getElem_append]

theorem isPositive_unpack {exponent : BitVec 11} {mantissa : BitVec 52}
    (number : exponent = -1#_ → mantissa = 0#_) (nonzero : exponent = 0#_ → mantissa ≠ 0#_) :
    IsPositive (unpack .binary64 (packComponents .binary64 .positive exponent mantissa)) := by
  unfold unpack
  simp only [unpackSign_packComponents, unpackExponent_packComponents,
    unpackMantissa_packComponents]
  split
  · next special =>
    rw [if_pos (number special)]
    trivial
  · split
    · next low =>
      rw [dif_neg (nonzero low)]
      trivial
    · trivial

/-- A positive number with a mantissa of at most 53 bits is packed as one. -/
theorem isPositive_pack {pos : 0 < m} (small : m < 2 ^ 53) (least : -1074 ≤ e) :
    IsPositive (Float.Model.pack (.finite .positive m e pos)).unpack := by
  show IsPositive (unpack .binary64 (pack .binary64 (.finite .positive m e pos)))
  have bias : (Format.binary64.exponentBias : Int) + (52 : Nat) = 1075 := by decide
  unfold pack
  simp only
  split
  · exact isPositive_unpack (fun _ => rfl) (by decide)
  · next fits =>
    generalize biased : (e + Format.binary64.exponentBias + (52 : Nat)).toNat = b at fits
    have high : b + 1 < 2 ^ 11 := Nat.lt_of_not_le fits
    have low : 1 ≤ b := by omega
    have bits : (BitVec.ofNat 11 b).toNat = b := by
      rw [BitVec.toNat_ofNat, Nat.mod_eq_of_lt (by omega)]
    split
    · refine isPositive_unpack (fun special => ?_) fun zero => ?_
      · have all : b = 2 ^ 11 - 1 := by rw [← bits, special]; rfl
        omega
      · have none : b = 0 := by rw [← bits, zero]; rfl
        omega
    · next short =>
      refine isPositive_unpack nofun fun _ zero => ?_
      have log2 : m.log2 < 52 := by
        have most : m.log2 < 53 := (Nat.log2_lt (Nat.ne_of_gt pos)).mpr small
        have short : ¬ m.log2 + 1 = 53 := short
        omega
      have fraction : m < 2 ^ 52 := (Nat.log2_lt (Nat.ne_of_gt pos)).mp log2
      have bits : m = 0 := by
        rw [← Nat.mod_eq_of_lt fraction, ← BitVec.toNat_ofNat, zero]
        rfl
      omega

/-! ## Reciprocals -/

theorem reciprocal_eq : (1 / x).toModel.unpack =
    (Float.Model.pack ((1 : Float).toModel.unpack.div .binary64 x.toModel.unpack)).unpack :=
  rfl

/-- The quotient of one and the mantissa of a double is computed to so many bits that it does not
vanish. -/
theorem divCore_one (pos : 0 < m) (small : m < 2 ^ 53) (most : e ≤ greatestExponent) :
    0 < (divCore .binary64 (2 ^ 52) (-52) m e).1 ∧
      -1074 ≤ (divCore .binary64 (2 ^ 52) (-52) m e).2.1 := by
  have most : e ≤ 971 := most
  have log2 : m.log2 < 53 := (Nat.log2_lt (Nat.ne_of_gt pos)).mpr small
  simp only [divCore, totalExponent, Format.targetExponent, Format.mantissaBits,
    Format.minExponent, Nat.log2_two_pow, Nat.shiftLeft_eq, ← Nat.pow_add]
  refine ⟨Nat.div_pos ?_ pos, by omega⟩
  calc m ≤ 2 ^ (m.log2 + 1) := Nat.le_of_lt Nat.lt_log2_self
    _ ≤ _ := Nat.pow_le_pow_right (by decide) (by omega)

/-- One over a positive finite double is positive. -/
theorem reciprocal_pos (finite : x.isFinite = true) (pos : 0 < x) : 0 < 1 / x := by
  rw [isFinite_eq] at finite
  rw [pos_iff] at pos ⊢
  rw [reciprocal_eq, unpack_one]
  match unpacked : x.toModel.unpack with
  | .notANumber | .infinity _ =>
    rw [unpacked] at finite
    cases finite
  | .zero _ | .finite .negative .. =>
    rw [unpacked] at pos
    exact pos.elim
  | .finite .positive m e nonzero =>
    have canonical := canonical_of_unpack unpacked
    obtain ⟨quotient, least⟩ := divCore_one nonzero canonical.small (exponent_of_unpack unpacked)
    let parts := divCore .binary64 (2 ^ 52) (-52) m e
    obtain ⟨m', e', pos', rounded, small, least⟩ :
        ∃ m' e' pos', roundWithAccuracy .binary64 .positive parts.1 parts.2.1 parts.2.2 =
          .finite .positive m' e' pos' ∧ m' < 2 ^ 53 ∧ -1074 ≤ e' :=
      round_finite .positive quotient least
    show IsPositive (Float.Model.pack
      (roundWithAccuracy .binary64 .positive parts.1 parts.2.1 parts.2.2)).unpack
    rw [rounded]
    exact isPositive_pack small least

end LineCalc.Decimal
