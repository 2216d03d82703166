import LineCalc.Proofs.Decimal.Scientific

/-!
# Hundredths of doubles

A hundred times the hundredth of a double need not be the double again, since both the quotient and
the product are rounded. But the hundredth of that product is the hundredth of the double: as long
as the steps of the product are at most 64 steps of the hundredth, the error of the product is less
than half a step when it is divided again, and where they are greater the product is the double.

Results:
1. `round_at_place`: a fraction is rounded to the nearest integer at its place, and what that packs to.
2. `round_error`: so a number is rounded to a double half a step away at most.
3. `hundredth_again`: the hundredth of a hundred times a hundredth is that hundredth.
-/

namespace LineCalc.Decimal

open Float.Model (UnpackedFloat Format totalExponent)
open Float.Model.UnpackedFloat

variable {p q n m : Nat} {e f : Int} {s : Sign}

/-! ## The error of rounding -/

/-- A fraction is rounded to an integer that is half a step away at most. -/
theorem rounded_error (pos : 0 < q) :
    |(p / q : ℚ) - (ofFraction p q).roundedMantissa| ≤ 1 / 2 := by
  rw [ofFraction, roundedMantissa_ofMantissaAndAccuracy]
  have parts : q * (p / q) + p % q = p := Nat.div_add_mod p q
  have less : p % q < q := Nat.mod_lt p pos
  have parity : p / q % 2 < 2 := Nat.mod_lt _ Nat.two_pos
  generalize accuracy : accuracyOfFraction (p % q) q = a
  obtain ⟨low, high⟩ : 2 * (q * a.roundToNearestEven (p / q)) ≤ 2 * p + q ∧
      2 * p ≤ 2 * (q * a.roundToNearestEven (p / q)) + q := by
    have next : q * (p / q + 1) = q * (p / q) + q := Nat.mul_succ q _
    unfold accuracyOfFraction at accuracy
    split at accuracy
    · subst accuracy
      show 2 * (q * (p / q)) ≤ _ ∧ _ ≤ 2 * (q * (p / q)) + q
      omega
    · subst accuracy
      cases half : compare (2 * (p % q)) q with
      | lt =>
        have half := Nat.compare_eq_lt.mp half
        show 2 * (q * (p / q)) ≤ _ ∧ _ ≤ 2 * (q * (p / q)) + q
        omega
      | eq =>
        have half := Nat.compare_eq_eq.mp half
        show 2 * (q * (p / q + p / q % 2)) ≤ _ ∧ _ ≤ 2 * (q * (p / q + p / q % 2)) + q
        rcases Nat.mod_two_eq_zero_or_one (p / q) with even | odd
        · rw [even, Nat.add_zero]
          omega
        · rw [odd, next]
          omega
      | gt =>
        have half := Nat.compare_eq_gt.mp half
        show 2 * (q * (p / q + 1)) ≤ _ ∧ _ ≤ 2 * (q * (p / q + 1)) + q
        rw [next]
        omega
  have posQ : (0 : ℚ) < q := Nat.cast_pos.mpr pos
  have low : (2 * (q * a.roundToNearestEven (p / q)) : ℚ) ≤ 2 * p + q := by exact_mod_cast low
  have high : (2 * p : ℚ) ≤ 2 * (q * a.roundToNearestEven (p / q)) + q := by exact_mod_cast high
  rw [abs_le]
  constructor
  · have below : (a.roundToNearestEven (p / q) : ℚ) - 1 / 2 ≤ p / q := by
      rw [le_div_iff₀ posQ]
      linarith
    linarith
  · have above : (p / q : ℚ) ≤ a.roundToNearestEven (p / q) + 1 / 2 := by
      rw [div_le_iff₀ posQ]
      linarith
    linarith

theorem roundToNearestEven_le (accuracy : Accuracy) (n : Nat) :
    accuracy.roundToNearestEven n ≤ n + 1 := by
  have parity : n % 2 < 2 := Nat.mod_lt _ Nat.two_pos
  cases accuracy with
  | exact => exact Nat.le_succ n
  | inexact half =>
    cases half with
    | lt => exact Nat.le_succ n
    | eq =>
      show n + n % 2 ≤ n + 1
      omega
    | gt => exact Nat.le_refl _

section

variable {d : Nat} (place : Format.binary64.targetExponent (totalExponent (p / q) f) = f + d)
include place

/-- At the place to round to, a fraction has at most 53 bits before it, and so many unless the place
is the least one. -/
theorem whole_at_place :
    p / (q * 2 ^ d) < 2 ^ 53 ∧ (f + d = -1074 ∨ 2 ^ 52 ≤ p / (q * 2 ^ d)) := by
  rw [targetExponent_eq] at place
  rw [← Nat.div_div_eq_div_mul]
  constructor
  · refine Nat.div_lt_of_lt_mul ?_
    calc p / q < 2 ^ ((p / q).log2 + 1) := Nat.lt_log2_self
      _ ≤ 2 ^ (d + 53) := Nat.pow_le_pow_right Nat.two_pos (by omega)
      _ = 2 ^ d * 2 ^ 53 := Nat.pow_add 2 d 53
  · refine or_iff_not_imp_left.mpr fun above => ?_
    rw [Nat.le_div_iff_mul_le (Nat.two_pow_pos d), ← Nat.pow_add]
    have bits : 52 + d = (p / q).log2 := by omega
    rw [bits]
    refine Nat.log2_self_le fun none => ?_
    rw [none, Nat.log2_zero] at bits
    omega

/-- A fraction with enough bits, cut off at the place to round to, is rounded to at most 53 bits, or
to the power of two next to them. -/
theorem canonical_of_rounded (nonzero : (ofFraction p (q * 2 ^ d)).roundedMantissa ≠ 0) :
    ∃ m k : Nat, (ofFraction p (q * 2 ^ d)).roundedMantissa = m * 2 ^ k ∧
      Canonical m (f + d + k) ∧ (k = 0 ∨ k = 1 ∧ m = 2 ^ 52) := by
  obtain ⟨short, normal⟩ := whole_at_place place
  have low : -1074 ≤ f + d := by
    rw [← place, targetExponent_eq]
    exact le_max_right _ _
  generalize whole : p / (q * 2 ^ d) = w at short normal
  generalize rounded : (ofFraction p (q * 2 ^ d)).roundedMantissa = n at nonzero
  obtain ⟨least, most⟩ : w ≤ n ∧ n ≤ w + 1 := by
    rw [← rounded, ← whole, ofFraction, roundedMantissa_ofMantissaAndAccuracy]
    exact ⟨le_roundToNearestEven, roundToNearestEven_le _ _⟩
  by_cases greatest : n = 2 ^ 53
  · refine ⟨2 ^ 52, 1, greatest, ⟨Nat.two_pow_pos 52, by norm_num, by omega, .inl ?_⟩,
      .inr ⟨rfl, rfl⟩⟩
    exact Nat.log2_two_pow
  · refine ⟨n, 0, (Nat.mul_one n).symm, ⟨Nat.pos_of_ne_zero nonzero, by omega, by omega, ?_⟩,
      .inl rfl⟩
    rcases normal with lowest | normal
    · exact .inr (by omega)
    · exact .inl ((Nat.log2_eq_iff nonzero).mpr ⟨by omega, by omega⟩)

variable (pos : 0 < q)
include pos

/-- A fraction is rounded to an integer at the place to round to, and that is a double. -/
theorem round_at_place (s : Sign) :
    (ofFraction p (q * 2 ^ d)).roundedMantissa = 0 ∧
        roundWithAccuracy .binary64 s (p / q) f (accuracyOfFraction (p % q) q) = .zero s ∨
      ∃ (m k : Nat) (pos' : 0 < m), (ofFraction p (q * 2 ^ d)).roundedMantissa = m * 2 ^ k ∧
        Canonical m (f + d + k) ∧ (k = 0 ∨ k = 1 ∧ m = 2 ^ 52) ∧
        roundWithAccuracy .binary64 s (p / q) f (accuracyOfFraction (p % q) q) =
          .finite s m (f + d + k) pos' := by
  have amount : (f + d - f).toNat = d := by omega
  have first : shiftToTargetExponent .binary64 (p / q) f (accuracyOfFraction (p % q) q) =
      (ofFraction p (q * 2 ^ d), f + d) := by
    rw [← shiftRight_ofFraction pos]
    simp only [shiftToTargetExponent, shiftToExponent, place, amount]
    rfl
  by_cases zero : (ofFraction p (q * 2 ^ d)).roundedMantissa = 0
  · have none : (shiftToTargetExponent .binary64 0 (f + d) .exact).1.mantissa = 0 := by
      rw [shiftToTargetExponent, shiftToExponent, mantissa_shiftRight,
        mantissa_ofMantissaAndAccuracy, Nat.zero_div]
    exact .inl ⟨zero, by simp [roundWithAccuracy, first, zero, none]⟩
  · obtain ⟨m, k, rounded, canonical, short⟩ := canonical_of_rounded place zero
    have shifted := canonical.shift k
    rw [add_sub_cancel_right] at shifted
    have nonzero : m ≠ 0 := Nat.ne_of_gt canonical.pos
    refine .inr ⟨m, k, canonical.pos, rounded, canonical, short, ?_⟩
    simp [roundWithAccuracy, first, rounded, shifted, nonzero]

omit place in
/-- A number in steps of a greater exponent. -/
theorem value_at_place : (p / q : ℚ) * 2 ^ f = p / (q * 2 ^ d : Nat) * 2 ^ (f + d) := by
  have posQ : (0 : ℚ) < q := Nat.cast_pos.mpr pos
  rw [zpow_add₀ two_ne_zero f, zpow_natCast]
  push_cast
  field_simp

/-- A number is rounded to a double half a step away at most, the step being that of the place to
round to; it is rounded to zero only where zero is as near. -/
theorem round_error (s : Sign) :
    roundWithAccuracy .binary64 s (p / q) f (accuracyOfFraction (p % q) q) = .zero s ∧
        (p / q : ℚ) * 2 ^ f ≤ 2 ^ (f + d) / 2 ∨
      ∃ m e pos', roundWithAccuracy .binary64 s (p / q) f (accuracyOfFraction (p % q) q) =
        .finite s m e pos' ∧ Canonical m e ∧ f + d ≤ e ∧
          |(p / q : ℚ) * 2 ^ f - m * 2 ^ e| ≤ 2 ^ (f + d) / 2 := by
  have unit : (0 : ℚ) < 2 ^ (f + d) := by positivity
  have error := rounded_error (p := p) (Nat.mul_pos pos (Nat.two_pow_pos d))
  rw [value_at_place pos (d := d)]
  rcases round_at_place place pos s with ⟨zero, rounds⟩ |
    ⟨m, k, pos', rounded, canonical, -, rounds⟩
  · refine .inl ⟨rounds, ?_⟩
    rw [zero, Nat.cast_zero, sub_zero] at error
    linarith [mul_le_mul_of_nonneg_right (le_of_abs_le error) unit.le]
  · refine .inr ⟨m, f + d + k, pos', rounds, canonical, by omega, ?_⟩
    have difference : (p / (q * 2 ^ d : Nat) : ℚ) * 2 ^ (f + d) - m * 2 ^ (f + d + k) =
        (p / (q * 2 ^ d : Nat) - (m * 2 ^ k : Nat)) * 2 ^ (f + d) := by
      rw [zpow_add₀ two_ne_zero (f + d), zpow_natCast]
      push_cast
      ring
    rw [rounded] at error
    rw [difference, abs_mul, abs_of_pos unit]
    linarith [mul_le_mul_of_nonneg_right error unit.le]

end

/-! ## Intervals -/

/-- A number is in the interval around a double if it is less than half a step away, and less than a
quarter of a step below a power of two. -/
theorem holds_of_distance {y : ℚ} (pos : 0 < m) (low : m - 1 / 2 < y) (high : y < m + 1 / 2)
    (power : m = 2 ^ 52 → m - 1 / 4 < y) : (Rounding.around m e).Holds (y * 2 ^ e) := by
  have unit : (0 : ℚ) < 2 ^ e := by positivity
  have above : ((Rounding.around m e).low : ℚ) * 2 ^ (e - 2) < y * 2 ^ e := by
    rw [low_around pos, quarter_step]
    split
    · next denser => linarith [mul_lt_mul_of_pos_right (power denser.1) unit]
    · linarith [mul_lt_mul_of_pos_right low unit]
  have below : y * 2 ^ e < (Rounding.around m e).high * 2 ^ (e - 2) := by
    rw [high_around, quarter_step]
    linarith [mul_lt_mul_of_pos_right high unit]
  unfold Rounding.Holds
  split
  · exact ⟨above.le, below.le⟩
  · exact ⟨above, below⟩

/-! ## A hundred -/

theorem hundred_pos : 0 < 100 * 2 ^ 46 := by decide

theorem unpack_hundred :
    (100 : Float).toModel.unpack = .finite .positive (100 * 2 ^ 46) (-46) hundred_pos := by
  have bits : (100 : Float).toModel.toBits = 0x4059000000000000 := rfl
  rw [Float.Model.unpack, bits]
  rfl

theorem mul_hundred_eq (x : Float) : x * 100 = Float.ofModel (.pack
    (x.toModel.unpack.mul .binary64 (.finite .positive (100 * 2 ^ 46) (-46) hundred_pos))) := by
  rw [← unpack_hundred]
  rfl

theorem div_hundred_eq (x : Float) : x / 100 = Float.ofModel (.pack
    (x.toModel.unpack.div .binary64 (.finite .positive (100 * 2 ^ 46) (-46) hundred_pos))) := by
  rw [← unpack_hundred]
  rfl

theorem value_hundred : ((100 * 2 ^ 46 : Nat) : ℚ) * 2 ^ (-46 : Int) = 100 := by
  norm_num

/-- A finite double that a number in the form of a double is packed to is that number. -/
theorem unpack_of_isFinite (h : Canonical m e)
    (finite : (Float.ofModel (.pack (.finite s m e h.pos))).isFinite = true) :
    (Float.ofModel (.pack (.finite s m e h.pos))).toModel.unpack = .finite s m e h.pos := by
  by_cases most : e ≤ greatestExponent
  · exact unpack_pack_canonical h most s
  · rw [isFinite_eq, unpack_ofModel_pack, pack_of_greater (Int.not_le.mp most)] at finite
    cases s <;> cases finite

variable {x : Float} {pos : 0 < m}

/-- The product with a hundred is half its own step away at most. -/
theorem mul_hundred (unpacked : x.toModel.unpack = .finite s m e pos)
    (finite : (x * 100).isFinite = true) :
    ∃ m' e' pos', (x * 100).toModel.unpack = .finite s m' e' pos' ∧
      (100 * m < 2 ^ 59 → |(100 * (m * 2 ^ e) - m' * 2 ^ e' : ℚ)| ≤ 32 * 2 ^ e) := by
  have least := (canonical_of_unpack unpacked).least
  have product : m * (100 * 2 ^ 46) = 100 * m * 2 ^ 46 := by omega
  have centuple : 0 < 100 * m := by omega
  have bits : 6 ≤ (100 * m).log2 := (Nat.le_log2 (Nat.ne_of_gt centuple)).mpr (by omega)
  let k := (100 * m).log2 - 52
  -- The step of the product is `2 ^ k` times that of the double.
  obtain ⟨d, place, most⟩ : ∃ d : Nat, Format.binary64.targetExponent
      (totalExponent (m * (100 * 2 ^ 46) / 1) (e + -46)) = e + -46 + d ∧ e + -46 + d ≤ e + k := by
    rw [targetExponent_eq, Nat.div_one, product, log2_mul_two_pow centuple]
    exact ⟨(max (((100 * m).log2 + 46 : Nat) + (e + -46) - 52) (-1074) - (e + -46)).toNat,
      by omega, by omega⟩
  have unit : (0 : ℚ) < 2 ^ e := by positivity
  have step : (2 : ℚ) ^ (e + -46 + d) ≤ 2 ^ k * 2 ^ e :=
    calc (2 : ℚ) ^ (e + -46 + d) ≤ 2 ^ (e + k) := zpow_le_zpow_right₀ one_le_two most
      _ = 2 ^ k * 2 ^ e := by rw [add_comm, zpow_add₀ two_ne_zero, zpow_natCast]
  have value : ((m * (100 * 2 ^ 46) : Nat) / (1 : Nat) : ℚ) * 2 ^ (e + -46) =
      100 * (m * 2 ^ e) := by
    rw [Nat.cast_one, div_one, Nat.cast_mul, zpow_add₀ two_ne_zero]
    linear_combination (m * 2 ^ e : ℚ) * value_hundred
  have error := round_error place Nat.one_pos (s * .positive)
  rw [value, Nat.mod_one, Nat.div_one] at error
  rcases error with ⟨-, zero⟩ | ⟨m', e', pos', rounds, canonical, -, near⟩
  · have less : (2 : ℚ) ^ k ≤ 100 * m := by
      have less : 2 ^ k ≤ 100 * m :=
        (Nat.pow_le_pow_right Nat.two_pos (Nat.sub_le _ _)).trans
          (Nat.log2_self_le (Nat.ne_of_gt centuple))
      exact_mod_cast less
    have positive : (0 : ℚ) < m * 2 ^ e := mul_pos (Nat.cast_pos.mpr pos) unit
    linarith [mul_le_mul_of_nonneg_right less unit.le]
  · have result : x * 100 = Float.ofModel (.pack (.finite s m' e' canonical.pos)) := by
      rw [mul_hundred_eq, unpacked]
      exact congrArg (fun u => Float.ofModel (.pack u)) (rounds.trans (by cases s <;> rfl))
    rw [result] at finite ⊢
    refine ⟨m', e', canonical.pos, unpack_of_isFinite canonical finite, fun small => ?_⟩
    have few : k ≤ 6 := by
      have bits := (Nat.log2_lt (Nat.ne_of_gt centuple)).mpr small
      omega
    have step' : (2 : ℚ) ^ k ≤ 2 ^ 6 := pow_le_pow_right₀ one_le_two few
    linarith [mul_le_mul_of_nonneg_right step' unit.le]

/-- The hundredth of a double is zero, or a hundred times it is fifty of its steps away from the
double at most. -/
theorem div_hundred (unpacked : x.toModel.unpack = .finite s m e pos)
    (finite : (x / 100).isFinite = true) :
    (x / 100).toModel.unpack = .zero s ∨
      ∃ m' e' pos', (x / 100).toModel.unpack = .finite s m' e' pos' ∧
        |(m * 2 ^ e - 100 * (m' * 2 ^ e') : ℚ)| ≤ 50 * 2 ^ e' := by
  obtain ⟨k, quotient, enough⟩ := divCore_eq e (-46) pos hundred_pos
  obtain ⟨d, place⟩ := Int.le.dest enough
  have divides :
      x.toModel.unpack.div .binary64 (.finite .positive (100 * 2 ^ 46) (-46) hundred_pos) =
      roundWithAccuracy .binary64 (s / .positive) (m * 2 ^ k / (100 * 2 ^ 46)) (e - -46 - k)
        (accuracyOfFraction (m * 2 ^ k % (100 * 2 ^ 46)) (100 * 2 ^ 46)) := by
    rw [unpacked, div, quotient]
  have sign : s / .positive = s := by cases s <;> rfl
  have value : ((m * 2 ^ k : Nat) / (100 * 2 ^ 46 : Nat) : ℚ) * 2 ^ (e - -46 - k) =
      m * 2 ^ e / 100 := by
    rw [zpow_sub₀ two_ne_zero, zpow_sub₀ two_ne_zero, zpow_natCast, ← value_hundred]
    push_cast
    field_simp
  have error := round_error place.symm hundred_pos s
  rw [value] at error
  rw [div_hundred_eq, divides, sign] at finite ⊢
  rcases error with ⟨rounds, -⟩ | ⟨m', e', pos', rounds, canonical, coarse, near⟩
  · left
    rw [rounds]
    cases s <;> rfl
  · right
    rw [rounds] at finite ⊢
    refine ⟨m', e', canonical.pos, unpack_of_isFinite canonical finite, ?_⟩
    have step : (2 : ℚ) ^ (e - -46 - k + d) ≤ 2 ^ e' := zpow_le_zpow_right₀ one_le_two coarse
    rw [abs_le] at near ⊢
    constructor <;> linarith

/-! ## The hundredth again -/

theorem isFinite_of_mul_hundred (finite : (x * 100).isFinite = true) : x.isFinite = true := by
  rw [isFinite_eq]
  rw [mul_hundred_eq] at finite
  match unpacked : x.toModel.unpack with
  | .notANumber =>
    rw [unpacked] at finite
    cases finite
  | .infinity s =>
    rw [unpacked] at finite
    cases s <;> cases finite
  | .zero _ | .finite .. => rfl

/-- A hundred times a power of two is a double. -/
theorem mul_hundred_power {pos : 0 < 2 ^ 52}
    (unpacked : x.toModel.unpack = .finite s (2 ^ 52) e pos) (finite : (x * 100).isFinite = true) :
    (x * 100).toModel.unpack = .finite s (25 * 2 ^ 48) (e + 6) (by decide) := by
  have least := (canonical_of_unpack unpacked).least
  have log2 : (25 * 2 ^ 48).log2 = 52 := (Nat.log2_eq_iff (by decide)).mpr (by decide)
  have canonical : Canonical (25 * 2 ^ 48) (e + 6) :=
    ⟨by decide, by decide, by omega, .inl log2⟩
  have value : ((2 ^ 52 : Nat) * (100 * 2 ^ 46 : Nat) : ℚ) * 2 ^ (e + -46) =
      (25 * 2 ^ 48 : Nat) * 2 ^ (e + 6) := by
    rw [zpow_add₀ two_ne_zero, zpow_add₀ two_ne_zero]
    push_cast
    norm_num
    ring
  have product := mul_in_interval canonical s .positive pos hundred_pos (by decide) (by
    rw [value]
    exact holds_of_distance canonical.pos (by linarith) (by linarith) fun _ => by linarith)
  have sign : s * .positive = s := by cases s <;> rfl
  rw [mul_hundred_eq, unpacked, product, sign] at finite ⊢
  exact unpack_of_isFinite canonical finite

/-- A product that is not too great is divided to the double again: its error is less than half a
step of the double, and it has no error if the double is a power of two. -/
theorem mul_div_hundred (unpacked : x.toModel.unpack = .finite s m e pos)
    (finite : (x * 100).isFinite = true) (small : 100 * m < 2 ^ 59) : x * 100 / 100 = x := by
  have h := canonical_of_unpack unpacked
  obtain ⟨m', e', pos', product, near⟩ := mul_hundred unpacked finite
  have near := abs_le.mp (near small)
  have unit : (0 : ℚ) < 2 ^ e := by positivity
  obtain ⟨y, value⟩ : ∃ y : ℚ, (m' : ℚ) * 2 ^ e' = 100 * (y * 2 ^ e) :=
    ⟨m' * 2 ^ e' / 100 / 2 ^ e, by field_simp⟩
  have low : (m - 1 / 2 : ℚ) < y := lt_of_mul_lt_mul_right (by linarith) unit.le
  have high : y < (m + 1 / 2 : ℚ) := lt_of_mul_lt_mul_right (by linarith) unit.le
  have power : m = 2 ^ 52 → (m - 1 / 4 : ℚ) < y := by
    rintro rfl
    obtain ⟨-, rfl, rfl⟩ := UnpackedFloat.finite.inj
      (product.symm.trans (mul_hundred_power unpacked finite))
    refine lt_of_mul_lt_mul_right ?_ unit.le
    rw [zpow_add₀ two_ne_zero] at value
    push_cast at value ⊢
    norm_num at value ⊢
    linarith
  have quotient : (x * 100).toModel.unpack.div .binary64
      (.finite .positive (100 * 2 ^ 46) (-46) hundred_pos) = .finite s m e pos := by
    have again : (m' / (100 * 2 ^ 46 : Nat) : ℚ) * 2 ^ (e' - -46) = y * 2 ^ e := by
      rw [zpow_sub₀ two_ne_zero, div_mul_div_comm, value, value_hundred]
      field_simp
    rw [product]
    refine (div_in_interval h s .positive pos' hundred_pos ?_).trans (by cases s <;> rfl)
    rw [again]
    exact holds_of_distance pos low high power
  rw [div_hundred_eq, quotient, ← unpacked]
  exact ofModel_pack_unpack x

variable {v : Float} {pos' : 0 < n}

/-- A great product is the double whose hundredth was taken, which has steps at least as great. -/
theorem mul_hundred_great (unpacked : x.toModel.unpack = .finite s m e pos)
    (hundredth : v.toModel.unpack = .finite s n f pos')
    (near : |(m * 2 ^ e - 100 * (n * 2 ^ f) : ℚ)| ≤ 50 * 2 ^ f) (great : 2 ^ 59 ≤ 100 * n) :
    v * 100 = x := by
  have h := canonical_of_unpack unpacked
  have near := abs_le.mp near
  have unit : (0 : ℚ) < 2 ^ f := by positivity
  have great : (2 ^ 59 : ℚ) ≤ 100 * n := by exact_mod_cast great
  have great := mul_le_mul_of_nonneg_right great unit.le
  obtain ⟨j, rfl⟩ : ∃ j : Nat, e = f + 7 + j := by
    refine ⟨(e - f - 7).toNat, ?_⟩
    by_contra fine
    have fine : e ≤ f + 6 := by omega
    have small : (m : ℚ) + 1 ≤ 2 ^ 53 := by exact_mod_cast h.small
    have step : (2 : ℚ) ^ e ≤ 2 ^ (f + 6) := zpow_le_zpow_right₀ one_le_two fine
    have below : (m : ℚ) * 2 ^ e ≤ (2 ^ 53 - 1) * 2 ^ (f + 6) :=
      mul_le_mul (by linarith) step (by positivity) (by norm_num)
    rw [zpow_add₀ two_ne_zero] at below
    norm_num at below great
    linarith
  have step : (2 : ℚ) ^ (f + 7 + j) = 2 ^ f * (128 * 2 ^ j) := by
    rw [zpow_add₀ two_ne_zero, zpow_add₀ two_ne_zero, zpow_natCast]
    ring
  obtain ⟨y, value⟩ : ∃ y : ℚ, 100 * (n * 2 ^ f) = y * 2 ^ (f + 7 + j) :=
    ⟨100 * (n * 2 ^ f) / 2 ^ (f + 7 + j), by field_simp⟩
  have coarse : (2 : ℚ) ^ f * 128 ≤ 2 ^ (f + 7 + j) := by
    rw [step, ← mul_assoc]
    exact le_mul_of_one_le_right (by positivity) (one_le_pow₀ one_le_two)
  have unit' : (0 : ℚ) < 2 ^ (f + 7 + j) := by positivity
  have low : (m - 1 / 2 : ℚ) < y := lt_of_mul_lt_mul_right (by linarith) unit'.le
  have high : y < (m + 1 / 2 : ℚ) := lt_of_mul_lt_mul_right (by linarith) unit'.le
  have power : m = 2 ^ 52 → (m - 1 / 4 : ℚ) < y := by
    rintro rfl
    refine lt_of_mul_lt_mul_right ?_ unit'.le
    cases j with
    | zero =>
      rw [← value, step]
      push_cast
      linarith
    | succ j =>
      have coarser : (2 : ℚ) ^ f * 256 ≤ 2 ^ (f + 7 + (j + 1 : Nat)) := by
        rw [step, pow_succ']
        linarith [le_mul_of_one_le_right (by positivity : (0 : ℚ) ≤ 2 ^ f * 256)
          (one_le_pow₀ one_le_two : (1 : ℚ) ≤ 2 ^ j)]
      rw [← value]
      push_cast at near coarser ⊢
      linarith
  have product : v.toModel.unpack.mul .binary64
      (.finite .positive (100 * 2 ^ 46) (-46) hundred_pos) = .finite s m (f + 7 + j) pos := by
    have value : (n * (100 * 2 ^ 46 : Nat) : ℚ) * 2 ^ (f + -46) = y * 2 ^ (f + 7 + j) := by
      rw [← value, zpow_add₀ two_ne_zero]
      linear_combination (n * 2 ^ f : ℚ) * value_hundred
    rw [hundredth]
    refine (mul_in_interval h s .positive pos' hundred_pos (by omega) ?_).trans
      (by cases s <;> rfl)
    rw [value]
    exact holds_of_distance pos low high power
  rw [mul_hundred_eq, product, ← unpacked]
  exact ofModel_pack_unpack x

/-- The hundredth of a hundred times the hundredth of a double is the hundredth. -/
theorem hundredth_again (x : Float) (finite : (x / 100 * 100).isFinite = true) :
    x / 100 * 100 / 100 = x / 100 := by
  have hundredth := isFinite_of_mul_hundred finite
  match unpacked : x.toModel.unpack with
  | .notANumber =>
    rw [isFinite_eq, div_hundred_eq, unpacked] at hundredth
    cases hundredth
  | .infinity s =>
    rw [isFinite_eq, div_hundred_eq, unpacked] at hundredth
    cases s <;> cases hundredth
  | .zero s =>
    rw [← ofModel_pack_unpack x, unpacked]
    cases s <;> rfl
  | .finite s m e pos =>
    rcases div_hundred unpacked hundredth with none | ⟨n, f, pos', some, near⟩
    · rw [← ofModel_pack_unpack (x / 100), none]
      cases s <;> rfl
    · by_cases small : 100 * n < 2 ^ 59
      · exact mul_div_hundred some finite small
      · rw [mul_hundred_great unpacked some near (Nat.le_of_not_lt small)]

end LineCalc.Decimal
