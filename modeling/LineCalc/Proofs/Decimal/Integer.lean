import LineCalc.Proofs.Decimal.Reciprocal

/-!
# Integers beyond the doubles

An integer has a nearest finite double unless it is at least half a step above the greatest one: the
greatest double has an odd mantissa, so the integer in the middle goes up as well.

Results:
1. `round_integer`: the exponent that an integer is rounded to, from its bits.
2. `doubleOfInteger_error_iff`: the integers without a double.
-/

namespace LineCalc.Decimal

open Float.Model (UnpackedFloat Format totalExponent)
open Float.Model.UnpackedFloat

/-- The least magnitude of an integer that rounds beyond the greatest double. -/
def integerLimit : Nat := 2 ^ 1024 - 2 ^ 970

variable {m : Nat}

/-! ## Rounding -/

/-- The first bits of a mantissa, with what is told of the others. -/
def leading (m : Nat) : ExtendedMantissa :=
  (⟨m, false, false⟩ : ExtendedMantissa) >>> (m.log2 - 52)

theorem mantissa_leading (m : Nat) : (leading m).mantissa = m / 2 ^ (m.log2 - 52) :=
  mantissa_shiftRight _ _

theorem roundedMantissa_le (em : ExtendedMantissa) : em.roundedMantissa ≤ em.mantissa + 1 := by
  obtain ⟨mantissa, round, sticky⟩ := em
  cases round <;> cases sticky <;>
    simp only [ExtendedMantissa.roundedMantissa, ExtendedMantissa.accuracy,
      Accuracy.roundToNearestEven] <;> omega

theorem roundedMantissa_leading_pos (pos : 0 < m) : 0 < (leading m).roundedMantissa :=
  Nat.lt_of_lt_of_le (mantissa_leading m ▸ (excess_shifted pos).1) le_roundToNearestEven

/-- Of the last bit that is cut off, a mantissa without it tells whether it is set. -/
theorem roundBit_shiftRight (m k : Nat) :
    ((⟨m, false, false⟩ : ExtendedMantissa) >>> (k + 1)).roundBit = (m / 2 ^ k % 2 != 0) := by
  show (((⟨m, false, false⟩ : ExtendedMantissa) >>> k).mantissa % 2 != 0) = _
  rw [mantissa_shiftRight]

/-- An odd mantissa is rounded up if the bit after it is set, and only then. -/
theorem roundedMantissa_odd {em : ExtendedMantissa} (odd : em.mantissa % 2 = 1) :
    em.roundedMantissa = if em.roundBit then em.mantissa + 1 else em.mantissa := by
  obtain ⟨mantissa, round, sticky⟩ := em
  have odd : mantissa % 2 = 1 := odd
  cases round <;> cases sticky <;>
    simp [ExtendedMantissa.roundedMantissa, ExtendedMantissa.accuracy,
      Accuracy.roundToNearestEven, odd]

/-- A number is rounded to one whose exponent is that of its first 53 bits, and one more if these are
rounded up to 54. -/
theorem exponent_of_round {e : Int} (s : Sign) (pos : 0 < m) (least : -1074 ≤ e) :
    ∃ m' pos', roundWithAccuracy .binary64 s m e .exact = .finite s m'
      (e + (m.log2 - 52 : Nat) + ((leading m).roundedMantissa.log2 - 52 : Nat)) pos' := by
  have final := excess_shifted (roundedMantissa_leading_pos pos)
  have next : -1074 ≤ e + (m.log2 - 52 : Nat) := by omega
  refine ⟨_, final.1, ?_⟩
  have first : shiftToTargetExponent .binary64 m e .exact =
      (leading m, e + (m.log2 - 52 : Nat)) := shiftToTargetExponent_eq least
  simp only [roundWithAccuracy, first, shiftToTargetExponent_eq next, mantissa_shiftRight,
    mantissa_ofMantissaAndAccuracy]
  rw [dif_neg (Nat.ne_of_gt final.1)]

theorem leading_of_short (short : m.log2 ≤ 52) : (leading m).roundedMantissa = m := by
  have none : m.log2 - 52 = 0 := by omega
  rw [leading, none]
  rfl

theorem round_integer (s : Sign) (pos : 0 < m) :
    ∃ m' pos', UnpackedFloat.round .binary64 s m 0 = .finite s m'
      ((m.log2 : Int) - 52 + ((leading m).roundedMantissa.log2 - 52 : Nat)) pos' := by
  have target : Format.binary64.targetExponent (totalExponent m 0) = (m.log2 : Int) - 52 := by
    rw [targetExponent_eq]
    omega
  have amount : (0 - ((m.log2 : Int) - 52)).toNat = 52 - m.log2 := by omega
  simp only [UnpackedFloat.round, target, decreaseExponent, amount, Nat.shiftLeft_eq]
  have more := Nat.mul_pos pos (Nat.two_pow_pos (52 - m.log2))
  obtain ⟨m', pos', rounds⟩ := exponent_of_round s more (e := 0 - (52 - m.log2 : Nat)) (by omega)
  refine ⟨m', pos', rounds.trans ?_⟩
  congr 1
  have bits := log2_mul_two_pow pos (52 - m.log2)
  rcases Nat.le_total m.log2 52 with short | long
  · -- A short mantissa is filled up with zeros, and nothing is cut off.
    rw [leading_of_short short, leading_of_short (by omega), bits]
    omega
  · have none : 52 - m.log2 = 0 := by omega
    simp only [none, Nat.pow_zero, Nat.mul_one]
    omega

/-! ## The limit -/

theorem log2_lt_iff {k : Nat} (pos : 0 < m) : m.log2 < k ↔ m < 2 ^ k :=
  Nat.log2_lt (Nat.ne_of_gt pos)

theorem leading_le (m : Nat) (pos : 0 < m) : (leading m).roundedMantissa ≤ 2 ^ 53 := by
  have most := (excess_shifted pos).2
  have up := roundedMantissa_le (leading m)
  rw [mantissa_leading] at up
  omega

theorem mantissa_of_last {k : Nat} (shift : m.log2 - 52 = k + 1) :
    (leading m).mantissa = m / 2 ^ k / 2 := by
  rw [mantissa_leading, shift, Nat.pow_succ, Nat.div_div_eq_div_mul]

theorem div_lt_of_log2_lt {k n : Nat} (few : m.log2 < k + n) : m / 2 ^ k < 2 ^ n := by
  have most : m < 2 ^ (k + n) :=
    Nat.lt_of_lt_of_le Nat.lt_log2_self (Nat.pow_le_pow_right Nat.two_pos few)
  exact Nat.div_lt_of_lt_mul (by rwa [← Nat.pow_add])

theorem div_lt_pred_iff {k n : Nat} : m / 2 ^ k < 2 ^ n - 1 ↔ m < 2 ^ (n + k) - 2 ^ k := by
  rw [Nat.div_lt_iff_lt_mul (Nat.two_pow_pos k), Nat.sub_mul, ← Nat.pow_add, Nat.one_mul]

/-- Of integers of 1024 bits, those from the limit on are rounded up to 54 bits. -/
theorem leading_of_greatest (bits : m.log2 = 1023) :
    (leading m).roundedMantissa < 2 ^ 53 ↔ m < integerLimit := by
  have shift : m.log2 - 52 = 970 + 1 := by omega
  have few : m / 2 ^ 970 < 2 ^ 54 := div_lt_of_log2_lt (by omega)
  have mantissa : (leading m).mantissa = m / 2 ^ 970 / 2 := mantissa_of_last shift
  have roundBit : (leading m).roundBit = (m / 2 ^ 970 % 2 != 0) := by
    rw [leading, shift, roundBit_shiftRight]
  have limit : m < integerLimit ↔ m / 2 ^ 970 < 2 ^ 54 - 1 := by
    rw [div_lt_pred_iff, integerLimit]
  rw [limit]
  generalize m / 2 ^ 970 = h at mantissa roundBit few
  have up := roundedMantissa_le (leading m)
  by_cases last : h / 2 = 2 ^ 53 - 1
  · have odd : (leading m).mantissa % 2 = 1 := by omega
    rw [roundedMantissa_odd odd, roundBit, mantissa, last]
    rcases Nat.mod_two_eq_zero_or_one h with clear | set
    · rw [if_neg (by simp [clear])]
      omega
    · rw [if_pos (by simp [set])]
      omega
  · omega

/-- An integer is rounded to an exponent of a finite double exactly below the limit. -/
theorem exponent_le_iff (pos : 0 < m) :
    (m.log2 : Int) - 52 + ((leading m).roundedMantissa.log2 - 52 : Nat) ≤ greatestExponent ↔
      m < integerLimit := by
  have rounded := roundedMantissa_leading_pos pos
  have most : (leading m).roundedMantissa.log2 ≤ 53 := by
    have le := leading_le m pos
    have lt : (leading m).roundedMantissa < 2 ^ 54 := by omega
    exact Nat.lt_succ_iff.mp ((log2_lt_iff rounded).mpr lt)
  have small : (leading m).roundedMantissa.log2 < 53 ↔ (leading m).roundedMantissa < 2 ^ 53 :=
    log2_lt_iff rounded
  rw [greatestExponent]
  rcases Nat.lt_trichotomy m.log2 1023 with fewer | bits | more
  · have below : m < 2 ^ 1023 := (log2_lt_iff pos).mp fewer
    have limit : 2 ^ 1023 ≤ integerLimit := by decide +kernel
    exact iff_of_true (by omega) (Nat.lt_of_lt_of_le below limit)
  · rw [← leading_of_greatest bits, ← small]
    omega
  · have above : 2 ^ 1024 ≤ m := Nat.le_of_not_lt fun lt =>
      absurd ((log2_lt_iff pos).mpr lt) (by omega)
    have limit : integerLimit ≤ 2 ^ 1024 := Nat.sub_le _ _
    exact iff_of_false (by omega) (Nat.not_lt.mpr (Nat.le_trans limit above))

/-! ## Doubles -/

/-- A number is infinite in the bits of a double exactly if its exponent is too great. -/
theorem isInf_pack_iff {s : Sign} {e : Int} {pos : 0 < m} :
    (Float.ofModel (.pack (.finite s m e pos))).isInf = true ↔ greatestExponent < e := by
  rcases lt_or_ge greatestExponent e with great | small
  · refine iff_of_true ?_ great
    rw [isInf_eq]
    show (unpack .binary64 (pack .binary64 (.finite s m e pos))).isInf = true
    rw [pack_of_greater great]
    cases s <;> rfl
  · refine iff_of_false ?_ (Int.not_lt.mpr small)
    have finite : (Float.ofModel (.pack (.finite s m e pos))).isFinite = true :=
      isFinite_pack fun _ _ _ _ eq => by
        cases eq
        exact small
    rw [← binary?_isSome] at finite
    obtain ⟨b, exact⟩ := Option.isSome_iff_exists.mp finite
    simp [not_isInf_of_binary? exact]

theorem integerLimit_pos : 0 < integerLimit := by decide +kernel

/-- The nearest double of an integer is infinite exactly from the limit on. -/
theorem isInf_ofInt_iff (n : Int) :
    (Binary.ofInt n 0).toFloat.isInf = true ↔ integerLimit ≤ n.natAbs := by
  have limit := integerLimit_pos
  unfold Binary.toFloat Binary.ofInt
  simp only
  split
  · next zero =>
    have zero : n.natAbs = 0 := by simpa using zero
    refine iff_of_false ?_ (by omega)
    split <;> exact Bool.false_ne_true
  · next nonzero =>
    have pos : 0 < n.natAbs := Nat.pos_of_ne_zero (by simpa using nonzero)
    obtain ⟨m', pos', rounds⟩ :=
      round_integer (if (decide (n < 0)) = true then .negative else .positive) pos
    rw [rounds, isInf_pack_iff, ← Nat.not_lt, ← exponent_le_iff pos, Int.not_le]

/-- The nearest double of a positive integer is positive. -/
theorem pos_ofInt {n : Int} (pos : 0 < n) : 0 < (Binary.ofInt n 0).toFloat := by
  have mantissa : 0 < n.natAbs := Int.natAbs_pos.mpr (Int.ne_of_gt pos)
  have target : Format.binary64.targetExponent (totalExponent n.natAbs 0) =
      (n.natAbs.log2 : Int) - 52 := by
    rw [targetExponent_eq]
    omega
  let k := (0 - ((n.natAbs.log2 : Int) - 52)).toNat
  obtain ⟨m', e', pos', rounds, small, least⟩ : ∃ m' e' pos',
      roundWithAccuracy .binary64 .positive (n.natAbs * 2 ^ k) (0 - k) .exact =
        .finite .positive m' e' pos' ∧ m' < 2 ^ 53 ∧ -1074 ≤ e' :=
    round_finite .positive (Nat.mul_pos mantissa (Nat.two_pow_pos k)) (by omega)
  have nonzero : (n.natAbs == 0) = false := beq_false_of_ne (Nat.ne_of_gt mantissa)
  have positive : decide (n < 0) = false := decide_eq_false (Int.not_lt.mpr (Int.le_of_lt pos))
  rw [pos_iff, Binary.toFloat, Binary.ofInt]
  simp only [nonzero, positive, Bool.false_eq_true, if_false, UnpackedFloat.round, target,
    decreaseExponent, Nat.shiftLeft_eq]
  rw [rounds]
  exact isPositive_pack small least

/-- Exactly the integers from the limit on, in either direction, have no double. -/
theorem doubleOfInteger_error_iff {n : Int} {f : Fault} :
    doubleOfInteger n = .error f ↔ integerLimit ≤ n.natAbs ∧ f = .integerTooLarge := by
  rw [← isInf_ofInt_iff, doubleOfInteger]
  cases (Binary.ofInt n 0).toFloat.isInf <;> simp [eq_comm]

end LineCalc.Decimal
