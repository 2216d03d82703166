import LineCalc.Decimal.Shortest
import LineCalc.Proofs.Decimal.Reciprocal

/-!
# Rounding to the nearest double

A positive number comes to rounding as a fraction: its whole part is the mantissa, and of what is
left it is told only whether it is nothing, less than a half, a half or more. That is enough, also
after more bits were cut off. A number is rounded to a double exactly where it lies in the interval
around it, which ends half a step above it, and half a step below it unless the steps are smaller
there.

Results:
1. `shiftRight_ofFraction`: bits that are cut off are told of like the fraction before.
2. `roundedMantissa_ofFraction`: a fraction is rounded to the integer next to it.
3. `round_fraction`: a number in the interval around a double is rounded to it.
4. `mul_in_interval`, `div_in_interval`: so are a product and a quotient.
-/

namespace LineCalc.Decimal

open Float.Model (UnpackedFloat Format totalExponent)
open Float.Model.UnpackedFloat

variable {p q n m k : Nat} {e : Int} {x : ℚ}

/-! ## Fractions -/

/-- The whole part of a fraction, with what is told of the rest. -/
def ofFraction (p q : Nat) : ExtendedMantissa :=
  .ofMantissaAndAccuracy (p / q) (accuracyOfFraction (p % q) q)

/-- The first bit of the rest is set from a half on, and others are set unless it is nothing or a
half. -/
theorem ofFraction_eq (pos : 0 < q) : ofFraction p q =
    ⟨p / q, decide (q ≤ 2 * (p % q)), decide (2 * (p % q) ≠ 0 ∧ 2 * (p % q) ≠ q)⟩ := by
  unfold ofFraction accuracyOfFraction
  split
  · next nothing =>
    rw [nothing]
    simp [ExtendedMantissa.ofMantissaAndAccuracy, Nat.ne_of_gt pos]
  · next some =>
    have some : 2 * (p % q) ≠ 0 := by omega
    cases half : compare (2 * (p % q)) q with
    | lt =>
      have less := Nat.compare_eq_lt.mp half
      simp [ExtendedMantissa.ofMantissaAndAccuracy, some, less, Nat.ne_of_lt less]
    | eq =>
      have same := Nat.compare_eq_eq.mp half
      simp [ExtendedMantissa.ofMantissaAndAccuracy, same]
    | gt =>
      have more := Nat.compare_eq_gt.mp half
      simp [ExtendedMantissa.ofMantissaAndAccuracy, some, Nat.le_of_lt more, Nat.ne_of_gt more]

theorem shiftRightOne_ofFraction (pos : 0 < q) :
    (ofFraction p q).shiftRightOne = ofFraction p (q * 2) := by
  have twice : p % (q * 2) = p % q + q * (p / q % 2) := Nat.mod_mul
  have rest : p % q < q := Nat.mod_lt p pos
  rw [ofFraction_eq pos, ofFraction_eq (Nat.mul_pos pos Nat.two_pos), twice]
  unfold ExtendedMantissa.shiftRightOne
  rcases Nat.mod_two_eq_zero_or_one (p / q) with even | odd
  · simp only [even, Nat.div_div_eq_div_mul, Nat.mul_zero, Nat.add_zero]
    congr 1
    · simp
      omega
    · rw [← Bool.decide_or]
      refine decide_eq_decide.mpr ?_
      omega
  · simp only [odd, Nat.div_div_eq_div_mul, Nat.mul_one]
    congr 1
    · simp
      omega
    · rw [← Bool.decide_or]
      refine decide_eq_decide.mpr ?_
      omega

/-- Bits that are cut off are told of like the rest before. -/
theorem shiftRight_ofFraction (pos : 0 < q) (k : Nat) :
    ofFraction p q >>> k = ofFraction p (q * 2 ^ k) := by
  induction k with
  | zero => simp [HShiftRight.hShiftRight, Nat.repeat]
  | succ k ih =>
    show (ofFraction p q >>> k).shiftRightOne = _
    rw [ih, shiftRightOne_ofFraction (Nat.mul_pos pos (Nat.two_pow_pos k)), Nat.mul_assoc,
      Nat.pow_succ]

/-! ## The integer next to a number -/

/-- An integer is next to a number, and is even if another one is as near. -/
structure IsNearest (x : ℚ) (n : Nat) : Prop where
  low : n - 1 / 2 ≤ x
  high : x ≤ n + 1 / 2
  even : x = n - 1 / 2 ∨ x = n + 1 / 2 → n % 2 = 0

theorem roundedMantissa_ofMantissaAndAccuracy (m : Nat) (accuracy : Accuracy) :
    (ExtendedMantissa.ofMantissaAndAccuracy m accuracy).roundedMantissa =
      accuracy.roundToNearestEven m := by
  cases accuracy with
  | exact => rfl
  | inexact half => cases half <;> rfl

/-- A whole part is rounded by twice the rest. -/
theorem rounded_of_bounds {whole rest : Nat} (parts : q * whole + rest = p) (less : rest < q)
    (low : 2 * n * q ≤ 2 * p + q) (high : 2 * p ≤ 2 * n * q + q)
    (even : 2 * n * q = 2 * p + q ∨ 2 * p = 2 * n * q + q → n % 2 = 0) :
    (accuracyOfFraction rest q).roundToNearestEven whole = n := by
  have product : 2 * n * q = 2 * (q * n) := by rw [Nat.mul_assoc, Nat.mul_comm n]
  have next (i : Nat) : q * (i + 1) = q * i + q := Nat.mul_succ q i
  rw [product] at low high even
  have atLeast : whole ≤ n := by
    refine Nat.le_of_lt_succ (Nat.lt_of_mul_lt_mul_left (a := q) ?_)
    rw [next]
    omega
  have atMost : n ≤ whole + 1 := by
    refine Nat.le_of_lt_succ (Nat.lt_of_mul_lt_mul_left (a := q) ?_)
    rw [next, next]
    omega
  have down : n = whole → q * n = q * whole := fun eq => by rw [eq]
  have up : n = whole + 1 → q * n = q * whole + q := fun eq => by rw [eq, next]
  unfold accuracyOfFraction
  split
  · show whole = n
    omega
  · cases half : compare (2 * rest) q with
    | lt =>
      have half := Nat.compare_eq_lt.mp half
      show whole = n
      omega
    | eq =>
      have half := Nat.compare_eq_eq.mp half
      show whole + whole % 2 = n
      omega
    | gt =>
      have half := Nat.compare_eq_gt.mp half
      show whole + 1 = n
      omega

/-- A fraction is rounded to the integer next to it. -/
theorem roundedMantissa_ofFraction (pos : 0 < q) (nearest : IsNearest (p / q) n) :
    (ofFraction p q).roundedMantissa = n := by
  obtain ⟨low, high, even⟩ := nearest
  have posQ : (0 : ℚ) < q := Nat.cast_pos.mpr pos
  have low : 2 * n * q ≤ 2 * p + q := by
    rw [le_div_iff₀ posQ] at low
    have low : (2 * n * q : ℚ) ≤ 2 * p + q := by linarith
    exact_mod_cast low
  have high : 2 * p ≤ 2 * n * q + q := by
    rw [div_le_iff₀ posQ] at high
    have high : (2 * p : ℚ) ≤ 2 * n * q + q := by linarith
    exact_mod_cast high
  have even : 2 * n * q = 2 * p + q ∨ 2 * p = 2 * n * q + q → n % 2 = 0 := by
    intro tie
    refine even ?_
    rw [div_eq_iff posQ.ne', div_eq_iff posQ.ne']
    rcases tie with tie | tie
    · have tie : (2 * n * q : ℚ) = 2 * p + q := by exact_mod_cast tie
      exact .inl (by linarith)
    · have tie : (2 * p : ℚ) = 2 * n * q + q := by exact_mod_cast tie
      exact .inr (by linarith)
  rw [ofFraction, roundedMantissa_ofMantissaAndAccuracy]
  exact rounded_of_bounds (Nat.div_add_mod p q) (Nat.mod_lt p pos) low high even

/-! ## The place to round to -/

theorem whole_lt_iff (pos : 0 < q) : p / q < 2 ^ k ↔ (p / q : ℚ) < 2 ^ k := by
  rw [Nat.div_lt_iff_lt_mul pos, div_lt_iff₀ (Nat.cast_pos.mpr pos)]
  norm_cast

theorem le_whole_iff (pos : 0 < q) : 2 ^ k ≤ p / q ↔ (2 : ℚ) ^ k ≤ p / q := by
  rw [Nat.le_div_iff_mul_le pos, le_div_iff₀ (Nat.cast_pos.mpr pos)]
  norm_cast

theorem log2_le_of_lt (less : m < 2 ^ (k + 1)) : m.log2 ≤ k := by
  by_cases zero : m = 0
  · simp [zero]
  · exact Nat.le_of_lt_succ ((Nat.log2_lt zero).mpr less)

/-- Of two numbers with the same value at different exponents one is a multiple of the other. -/
theorem eq_mul_of_value {y z : ℚ} {d : Nat} (value : y * 2 ^ e = z * 2 ^ (e + d)) :
    y = z * 2 ^ d := by
  rw [zpow_add₀ two_ne_zero, mul_left_comm, mul_comm y] at value
  exact_mod_cast mul_left_cancel₀ (zpow_ne_zero e two_ne_zero) value

/-- A number is rounded at the place where it has 53 bits, and no lower than at the least one. -/
theorem targetExponent_fraction {z : ℚ} {t : Int} (pos : 0 < q)
    (value : (p / q : ℚ) * 2 ^ e = z * 2 ^ t) (most : z < 2 ^ 53) (least : -1074 ≤ t)
    (form : t = -1074 ∨ 2 ^ 52 ≤ z)
    (enough : e ≤ Format.binary64.targetExponent (totalExponent (p / q) e)) :
    Format.binary64.targetExponent (totalExponent (p / q) e) = t := by
  rw [targetExponent_eq] at enough ⊢
  have notAbove : e ≤ t := by
    by_contra above
    obtain ⟨d, rfl⟩ : ∃ d : Nat, e = t + (d + 1 : Nat) := ⟨(e - t - 1).toNat, by omega⟩
    have multiple : z = p / q * 2 ^ (d + 1) := eq_mul_of_value value.symm
    have few : p / q < 2 ^ (51 + 1) := by
      rw [whole_lt_iff pos]
      have nonneg : (0 : ℚ) ≤ p / q := by positivity
      have one : (1 : ℚ) ≤ 2 ^ d := one_le_pow₀ one_le_two
      rw [multiple, pow_succ, ← mul_assoc] at most
      have more : (p / q : ℚ) ≤ p / q * 2 ^ d := le_mul_of_one_le_right nonneg one
      linarith
    have bits := log2_le_of_lt few
    omega
  obtain ⟨d, rfl⟩ : ∃ d : Nat, t = e + d := ⟨(t - e).toNat, by omega⟩
  have multiple : (p / q : ℚ) = z * 2 ^ d := eq_mul_of_value value
  have twoPos : (0 : ℚ) < 2 ^ d := by positivity
  have few : p / q < 2 ^ (52 + d + 1) := by
    rw [whole_lt_iff pos, multiple, Nat.add_right_comm, pow_add]
    exact mul_lt_mul_of_pos_right most twoPos
  have bits := log2_le_of_lt few
  rcases form with lowest | normal
  · omega
  · have many : 2 ^ (52 + d) ≤ p / q := by
      rw [le_whole_iff pos, multiple, pow_add]
      exact mul_le_mul_of_nonneg_right normal twoPos.le
    have nonzero : p / q ≠ 0 := Nat.ne_of_gt (Nat.lt_of_lt_of_le (Nat.two_pow_pos _) many)
    have exact := (Nat.le_log2 nonzero).mpr many
    omega

/-- A fraction with enough bits is rounded to the integer next to it at the place to round to. -/
theorem round_of_nearest {z : ℚ} {f : Int} {j : Nat} (h : Canonical m e) (s : Sign) (pos : 0 < q)
    (value : (p / q : ℚ) * 2 ^ f = z * 2 ^ (e - j)) (most : z < 2 ^ 53) (least : -1074 ≤ e - j)
    (form : e - j = -1074 ∨ 2 ^ 52 ≤ z) (nearest : IsNearest z (m * 2 ^ j))
    (enough : f ≤ Format.binary64.targetExponent (totalExponent (p / q) f)) :
    roundWithAccuracy .binary64 s (p / q) f (accuracyOfFraction (p % q) q) =
      .finite s m e h.pos := by
  have target := targetExponent_fraction pos value most least form enough
  rw [target] at enough
  obtain ⟨d, place⟩ : ∃ d : Nat, e - j = f + d := ⟨(e - j - f).toNat, by omega⟩
  have amount : (e - j - f).toNat = d := by omega
  have first : shiftToTargetExponent .binary64 (p / q) f (accuracyOfFraction (p % q) q) =
      (ofFraction p (q * 2 ^ d), e - j) := by
    rw [← shiftRight_ofFraction pos, place]
    simp only [shiftToTargetExponent, shiftToExponent, target, amount]
    rfl
  have rounded : (ofFraction p (q * 2 ^ d)).roundedMantissa = m * 2 ^ j := by
    refine roundedMantissa_ofFraction (Nat.mul_pos pos (Nat.two_pow_pos d)) ?_
    rw [place] at value
    have twoNe : (2 : ℚ) ^ d ≠ 0 := by positivity
    rw [Nat.cast_mul, ← div_div, eq_mul_of_value value]
    push_cast
    rwa [mul_div_cancel_right₀ z twoNe]
  have nonzero : m ≠ 0 := Nat.ne_of_gt h.pos
  simp [roundWithAccuracy, first, rounded, h.shift j, nonzero]

/-! ## Intervals -/

/-- A number lies in an interval of rounding. -/
def Rounding.Holds (r : Rounding) (x : ℚ) : Prop :=
  if r.closed then r.low * 2 ^ r.exponent ≤ x ∧ x ≤ r.high * 2 ^ r.exponent
  else r.low * 2 ^ r.exponent < x ∧ x < r.high * 2 ^ r.exponent

/-- The unit of the interval around a double is a quarter of its step. -/
theorem quarter_step (e : Int) : (2 : ℚ) ^ (e - 2) = 2 ^ e / 4 := by
  rw [zpow_sub₀ two_ne_zero]
  norm_num

/-- Below a power of two the interval is half as long if the steps are smaller there. -/
theorem low_around (pos : 0 < m) : ((Rounding.around m e).low : ℚ) =
    if m = 2 ^ 52 ∧ -1074 < e then (4 * m - 1 : ℚ) else 4 * m - 2 := by
  have low : (Rounding.around m e).low =
      if m = 2 ^ 52 ∧ -1074 < e then 4 * m - 1 else 4 * m - 2 := by
    simp [Rounding.around, leastExponent]
  rw [low]
  split
  · rw [Nat.cast_sub (by omega)]
    push_cast
    rfl
  · rw [Nat.cast_sub (by omega)]
    push_cast
    rfl

theorem high_around : ((Rounding.around m e).high : ℚ) = (4 * m + 2 : ℚ) := by
  show ((4 * m + 2 : Nat) : ℚ) = 4 * m + 2
  push_cast
  rfl

/-- The bounds of the interval around a double, in steps of the double. -/
theorem bounds_of_holds {y : ℚ} (holds : (Rounding.around m e).Holds (y * 2 ^ e)) :
    ((Rounding.around m e).low / 4 ≤ y ∧ y ≤ m + 1 / 2) ∧
      (m % 2 = 1 → (Rounding.around m e).low / 4 < y ∧ y < m + 1 / 2) := by
  have unitPos : (0 : ℚ) < 2 ^ e := by positivity
  have quarters (c : ℚ) : c * (2 ^ e / 4) = c / 4 * 2 ^ e := by ring
  have high : (4 * m + 2 : ℚ) / 4 = m + 1 / 2 := by ring
  have exponent : (Rounding.around m e).exponent = e - 2 := rfl
  have closed : (Rounding.around m e).closed = (m % 2 == 0) := rfl
  rw [Rounding.Holds, exponent, closed, quarter_step, quarters, quarters, high_around, high] at holds
  split at holds
  · next even =>
    rw [mul_le_mul_iff_left₀ unitPos, mul_le_mul_iff_left₀ unitPos] at holds
    exact ⟨holds, fun odd => by simp [odd] at even⟩
  · rw [mul_lt_mul_iff_left₀ unitPos, mul_lt_mul_iff_left₀ unitPos] at holds
    exact ⟨⟨holds.1.le, holds.2.le⟩, fun _ => holds⟩

/-- In the interval around a double its mantissa is the nearest one, and a number less than it is
nearer if the steps are smaller below it. -/
theorem nearest_of_holds {y : ℚ} (pos : 0 < m) (holds : (Rounding.around m e).Holds (y * 2 ^ e)) :
    IsNearest y m ∧ (m = 2 ^ 52 → -1074 < e → m - 1 / 4 ≤ y) := by
  obtain ⟨⟨low, high⟩, odd⟩ := bounds_of_holds holds
  rw [low_around pos] at low odd
  by_cases denser : m = 2 ^ 52 ∧ -1074 < e
  · rw [if_pos denser] at low
    refine ⟨⟨by linarith, high, fun _ => ?_⟩, fun _ _ => by linarith⟩
    rw [denser.1]
    rfl
  · rw [if_neg denser] at low odd
    refine ⟨⟨by linarith, high, fun tie => ?_⟩, fun power above => absurd ⟨power, above⟩ denser⟩
    by_contra uneven
    obtain ⟨low, high⟩ := odd (Nat.mod_two_ne_zero.mp uneven)
    rcases tie with tie | tie <;> linarith

/-- A number in the interval around a double is rounded to it. -/
theorem round_fraction {f : Int} (h : Canonical m e) (s : Sign) (pos : 0 < q)
    (holds : (Rounding.around m e).Holds ((p / q : ℚ) * 2 ^ f))
    (enough : f ≤ Format.binary64.targetExponent (totalExponent (p / q) f)) :
    roundWithAccuracy .binary64 s (p / q) f (accuracyOfFraction (p % q) q) =
      .finite s m e h.pos := by
  obtain ⟨y, value⟩ : ∃ y : ℚ, (p / q : ℚ) * 2 ^ f = y * 2 ^ e :=
    ⟨(p / q : ℚ) * 2 ^ f / 2 ^ e, (div_mul_cancel₀ _ (zpow_ne_zero e two_ne_zero)).symm⟩
  rw [value] at holds
  obtain ⟨nearest, power⟩ := nearest_of_holds h.pos holds
  have most : (m : ℚ) + 1 ≤ 2 ^ 53 := by exact_mod_cast h.small
  by_cases below : (m = 2 ^ 52 ∧ -1074 < e) ∧ y < m
  · -- Below a power of two the place to round to is one lower.
    obtain ⟨⟨greatest, above⟩, below⟩ := below
    have near := power greatest above
    have normal : (m : ℚ) = 2 ^ 52 := by exact_mod_cast greatest
    have value : (p / q : ℚ) * 2 ^ f = y * 2 * 2 ^ (e - (1 : Nat)) := by
      rw [value, zpow_sub₀ two_ne_zero]
      norm_num
      ring
    refine round_of_nearest h s pos value (by linarith) (by omega) (.inr (by linarith)) ?_ enough
    refine ⟨?_, ?_, fun _ => Nat.mul_mod_left m 2⟩
    · push_cast
      linarith
    · push_cast
      linarith
  · have value : (p / q : ℚ) * 2 ^ f = y * 2 ^ (e - (0 : Nat)) := by simpa using value
    have least := h.least
    refine round_of_nearest h s pos value (by linarith [nearest.high]) (by omega) ?_ ?_ enough
    · rcases h.form with normal | lowest
      · by_cases denser : -1074 < e
        · refine .inr ?_
          have bits := (Nat.log2_eq_iff (Nat.ne_of_gt h.pos)).mp normal
          by_cases least : m = 2 ^ 52
          · have notBelow : (m : ℚ) ≤ y := not_lt.mp fun less => below ⟨⟨least, denser⟩, less⟩
            have normal : (m : ℚ) = 2 ^ 52 := by exact_mod_cast least
            linarith
          · have more : (2 : ℚ) ^ 52 + 1 ≤ m := by
              have more : 2 ^ 52 + 1 ≤ m := by omega
              exact_mod_cast more
            linarith [nearest.low]
        · exact .inl (by omega)
      · exact .inl (by omega)
    · simpa using nearest

/-! ## Products and quotients -/

variable {m₁ m₂ : Nat} {e₁ e₂ : Int}

/-- A product in the interval around a double is that double. -/
theorem mul_in_interval (h : Canonical m e) (s₁ s₂ : Sign) (pos₁ : 0 < m₁) (pos₂ : 0 < m₂)
    (long : 2 ^ 52 ≤ m₁ * m₂)
    (holds : (Rounding.around m e).Holds ((m₁ * m₂ : ℚ) * 2 ^ (e₁ + e₂))) :
    UnpackedFloat.mul .binary64 (.finite s₁ m₁ e₁ pos₁) (.finite s₂ m₂ e₂ pos₂) =
      .finite (s₁ * s₂) m e h.pos := by
  have bits := (Nat.le_log2 (Nat.ne_of_gt (Nat.mul_pos pos₁ pos₂))).mpr long
  have enough : e₁ + e₂ ≤
      Format.binary64.targetExponent (totalExponent (m₁ * m₂ / 1) (e₁ + e₂)) := by
    rw [targetExponent_eq, Nat.div_one]
    omega
  have whole : ((m₁ * m₂ : Nat) / (1 : Nat) : ℚ) = m₁ * m₂ := by
    push_cast
    rw [div_one]
  have rounds := round_fraction h (s₁ * s₂) Nat.one_pos (by rwa [whole]) enough
  rwa [Nat.div_one, Nat.mod_one] at rounds

/-- A quotient of mantissas is computed to enough bits. -/
theorem divCore_eq (e₁ e₂ : Int) (pos₁ : 0 < m₁) (pos₂ : 0 < m₂) : ∃ k : Nat,
    divCore .binary64 m₁ e₁ m₂ e₂ =
      (m₁ * 2 ^ k / m₂, e₁ - e₂ - k, accuracyOfFraction (m₁ * 2 ^ k % m₂) m₂) ∧
    e₁ - e₂ - k ≤ Format.binary64.targetExponent (totalExponent (m₁ * 2 ^ k / m₂) (e₁ - e₂ - k)) := by
  let target := Format.binary64.targetExponent (totalExponent m₁ e₁ - totalExponent m₂ e₂)
  let k := (e₁ - e₂ - min (e₁ - e₂) target).toNat
  have place : e₁ - e₂ - k = min (e₁ - e₂) target := by omega
  refine ⟨k, ?_, ?_⟩
  · rw [place]
    simp only [divCore, Nat.shiftLeft_eq]
    rfl
  · have aimed : target = max ((m₁.log2 : Int) - m₂.log2 + e₁ - e₂ - 53) (-1074) := by
      simp only [target, totalExponent, Format.targetExponent, Format.mantissaBits,
        Format.minExponent]
      omega
    rw [targetExponent_eq]
    by_cases lowest : e₁ - e₂ - k ≤ -1074
    · omega
    · have shifted : m₂.log2 + 1 + 52 ≤ m₁.log2 + k := by omega
      have long : 2 ^ 52 ≤ m₁ * 2 ^ k / m₂ := by
        rw [Nat.le_div_iff_mul_le pos₂]
        calc 2 ^ 52 * m₂ ≤ 2 ^ 52 * 2 ^ (m₂.log2 + 1) :=
              Nat.mul_le_mul_left _ (Nat.le_of_lt Nat.lt_log2_self)
          _ = 2 ^ (m₂.log2 + 1 + 52) := by rw [← Nat.pow_add, Nat.add_comm]
          _ ≤ 2 ^ (m₁.log2 + k) := Nat.pow_le_pow_right Nat.two_pos shifted
          _ ≤ m₁ * 2 ^ k := by
            rw [Nat.pow_add]
            exact Nat.mul_le_mul_right _ (Nat.log2_self_le (Nat.ne_of_gt pos₁))
      have nonzero : m₁ * 2 ^ k / m₂ ≠ 0 :=
        Nat.ne_of_gt (Nat.lt_of_lt_of_le (Nat.two_pow_pos 52) long)
      have bits := (Nat.le_log2 nonzero).mpr long
      omega

/-- A quotient in the interval around a double is that double. -/
theorem div_in_interval (h : Canonical m e) (s₁ s₂ : Sign) (pos₁ : 0 < m₁) (pos₂ : 0 < m₂)
    (holds : (Rounding.around m e).Holds ((m₁ / m₂ : ℚ) * 2 ^ (e₁ - e₂))) :
    UnpackedFloat.div .binary64 (.finite s₁ m₁ e₁ pos₁) (.finite s₂ m₂ e₂ pos₂) =
      .finite (s₁ / s₂) m e h.pos := by
  obtain ⟨k, quotient, enough⟩ := divCore_eq e₁ e₂ pos₁ pos₂
  have same : ((m₁ * 2 ^ k : Nat) / m₂ : ℚ) * 2 ^ (e₁ - e₂ - k) = m₁ / m₂ * 2 ^ (e₁ - e₂) := by
    have twoNe : (2 : ℚ) ^ k ≠ 0 := by positivity
    rw [zpow_sub₀ two_ne_zero, zpow_natCast]
    push_cast
    field_simp
  have rounds := round_fraction h (s₁ / s₂) pos₂ (by rwa [same]) enough
  rw [div, quotient]
  exact rounds

end LineCalc.Decimal
