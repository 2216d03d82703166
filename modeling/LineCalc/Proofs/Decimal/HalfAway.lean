import LineCalc.Decimal.HalfAway
import LineCalc.Proofs.Decimal.Nearest
import LineCalc.Proofs.Decimal.Spelling

/-!
# Rounding half away from zero

A double is rounded by its text: the number that is written is brought to the nearest integer at the
place to round to, a half going away from zero, and the double nearest to that multiple is taken.
Where the multiple has too many digits or its place is too high the double stays as it is. A number
with too high a first digit has too many digits at the place as well, and so has each number but zero
at the places that are refused for being too low; so there is one limit on digits and one on places.

Results:
1. `nearestAway_inUnits`: a decimal is brought to the nearest integer at a place.
2. `truncate_eq`: the places of a double are counted toward zero.
3. `writes_signed`: the text of a double writes its shortest decimal.
4. `roundHalfAway?_rounded`: what comes of a double, at all places that are not too high.
-/

namespace LineCalc.Decimal

variable {z q : ℚ} {n : ℤ} {b : Binary} {x : Float} {s : Scientific} {k : Int}

/-! ## The nearest integer -/

/-- The integer nearest to a number; of two that are as near, the one further away from zero. -/
structure NearestAway (z : ℚ) (n : ℤ) : Prop where
  near : |z - n| ≤ 1 / 2
  away : |z - n| = 1 / 2 → |z| < |(n : ℚ)|

theorem nearestAway_intCast (n : ℤ) : NearestAway n n := by
  refine ⟨?_, fun tie => ?_⟩
  · rw [sub_self, abs_zero]
    norm_num
  · rw [sub_self, abs_zero] at tie
    norm_num at tie

theorem NearestAway.neg (h : NearestAway z n) : NearestAway (-z) (-n) := by
  have distance : |-z - (-n : ℤ)| = |z - n| := by
    rw [← abs_neg]
    congr 1
    push_cast
    ring
  refine ⟨distance.trans_le h.near, fun tie => ?_⟩
  rw [distance] at tie
  simpa using h.away tie

theorem nearestAway_below {c : Nat} {r : ℚ} (nonneg : 0 ≤ r) (less : r < 1 / 2) :
    NearestAway (c + r) c := by
  have distance : |(c : ℚ) + r - (c : ℤ)| = r := by
    rw [Int.cast_natCast, add_sub_cancel_left, abs_of_nonneg nonneg]
  exact ⟨distance.trans_le less.le, fun tie => absurd (distance.symm.trans tie) less.ne⟩

theorem nearestAway_above {c : Nat} {r : ℚ} (half : 1 / 2 ≤ r) (less : r < 1) :
    NearestAway (c + r) (c + 1) := by
  have count : (0 : ℚ) ≤ c := Nat.cast_nonneg c
  have distance : |(c : ℚ) + r - (c + 1 : ℤ)| = 1 - r := by
    rw [abs_of_nonpos] <;> push_cast <;> linarith
  refine ⟨by rw [distance]; linarith, fun _ => ?_⟩
  rw [abs_of_nonneg (by linarith), abs_of_nonneg] <;> push_cast <;> linarith

theorem nearestAway_roundDiv {num den : Nat} (pos : 0 < den) :
    NearestAway (num / den) (roundDiv .awayFromZero num den) := by
  have denPos : (0 : ℚ) < den := Nat.cast_pos.mpr pos
  have parts : (num : ℚ) / den = (num / den : Nat) + (num % den : Nat) / den := by
    rw [div_eq_iff denPos.ne', add_mul, div_mul_cancel₀ _ denPos.ne']
    exact_mod_cast (Nat.div_add_mod' num den).symm
  have rest : (0 : ℚ) ≤ (num % den : Nat) / den := by positivity
  have less : ((num % den : Nat) : ℚ) / den < 1 :=
    (div_lt_one denPos).mpr (Nat.cast_lt.mpr (Nat.mod_lt num pos))
  have half : ((num % den : Nat) : ℚ) / den < 1 / 2 ↔ 2 * (num % den) < den := by
    rw [div_lt_div_iff₀ denPos two_pos, one_mul, mul_comm, ← Nat.cast_ofNat, ← Nat.cast_mul,
      Nat.cast_lt]
  rw [parts, roundDiv]
  by_cases below : 2 * (num % den) < den
  · rw [if_pos below]
    exact nearestAway_below rest (half.mpr below)
  · -- Above a half and at it the quotient is rounded up.
    have up : (if 2 * (num % den) > den then num / den + 1 else num / den + 1) = num / den + 1 :=
      ite_self _
    rw [if_neg below, up, Nat.cast_succ]
    exact nearestAway_above (not_lt.mp fun less => below (half.mp less)) less

theorem NearestAway.eq_zero (h : NearestAway 0 n) : n = 0 := by
  have near := h.near
  rw [zero_sub, abs_neg] at near
  have small : |n| < 1 := by
    have small : |(n : ℚ)| < 1 := by linarith
    exact_mod_cast small
  exact Int.abs_lt_one_iff.mp small

/-- The nearest integer is not less than an integer that the number is not less than. -/
theorem NearestAway.le (h : NearestAway z n) {c : ℤ} (le : (c : ℚ) ≤ z) : c ≤ n := by
  have near := (abs_le.mp h.near).2
  have less : (c : ℚ) < n + 1 := by linarith
  exact Int.lt_add_one_iff.mp (by exact_mod_cast less)

theorem zpow_ten_add (i j : Int) : (10 : ℚ) ^ (i + j) = 10 ^ i * 10 ^ j :=
  zpow_add₀ (by norm_num) i j

/-- A decimal is brought to the nearest integer at a place. -/
theorem nearestAway_inUnits (s : Scientific) (k : Int) :
    NearestAway (s.digits * 10 ^ s.exponent * 10 ^ k) (s.inUnits (-k)) := by
  rw [mul_assoc, ← zpow_ten_add, Scientific.inUnits, sub_neg_eq_add]
  generalize s.exponent + k = shift
  split
  · next nonneg =>
    obtain ⟨i, rfl⟩ := Int.eq_ofNat_of_zero_le nonneg
    have whole : (s.digits : ℚ) * 10 ^ (i : Int) = ((s.digits * tenTo i : Nat) : ℤ) := by
      rw [tenTo, Nat.pow_eq, zpow_natCast]
      push_cast
      rfl
    rw [whole, Int.toNat_natCast]
    exact nearestAway_intCast _
  · obtain ⟨i, rfl⟩ : ∃ i : Nat, shift = -(i : Int) := ⟨shift.natAbs, by omega⟩
    have quotient : (s.digits : ℚ) * 10 ^ (-(i : Int)) = s.digits / (tenTo i : Nat) := by
      rw [tenTo, Nat.pow_eq, zpow_neg, zpow_natCast, div_eq_mul_inv]
      push_cast
      rfl
    rw [quotient, neg_neg, Int.toNat_natCast]
    exact nearestAway_roundDiv (Nat.pow_pos (by decide))

/-! ## Toward zero -/

/-- The integer next to a number toward zero. -/
def towardZero (q : ℚ) : ℤ := if 0 ≤ q then ⌊q⌋ else ⌈q⌉

theorem truncate_eq (b : Binary) : b.truncate = towardZero b.value := by
  have whole : ⌊(b.mantissa * 2 ^ b.exponent : ℚ)⌋ = b.wholePart := by
    rw [← fraction_value, Rat.floor_natCast_div_natCast, Binary.wholePart, Int.natCast_div]
  have nonneg : (0 : ℚ) ≤ b.mantissa * 2 ^ b.exponent := by positivity
  rw [Binary.truncate, Binary.value]
  split
  · rw [towardZero]
    split
    · next zero =>
      have zero : (b.mantissa * 2 ^ b.exponent : ℚ) = 0 := by linarith
      rw [← whole, zero]
      rfl
    · rw [Int.ceil_neg, whole]
  · rw [towardZero, if_pos nonneg, whole]

/-! ## Digits -/

theorem digitCount_le_iff : digitCount n.natAbs ≤ mostDigits ↔ n.natAbs < 10 ^ 28 := by
  rw [digitCount]
  split
  · next zero =>
    rw [beq_iff_eq.mp zero]
    decide
  · exact Nat.length_toDigits_le_iff (by decide) (by decide)

/-- A decimal with too high a first digit has too many digits at the place. -/
theorem great_of_firstPlace (pos : 0 < s.digits) (high : s.firstPlace + k + 1 > mostDigits) :
    ((10 ^ 28 : Nat) : ℚ) ≤ s.digits * 10 ^ s.exponent * 10 ^ k := by
  have count : digitCount s.digits = (digitChars s.digits).length := by
    rw [digitCount, if_neg (by simpa using Nat.ne_of_gt pos)]
    rfl
  have first := digitCount_le pos
  have high : (28 : Int) ≤ digitCount s.digits - 1 + (s.exponent + k) := by
    rw [Scientific.firstPlace, mostDigits] at high
    omega
  rw [mul_assoc, ← zpow_ten_add]
  calc ((10 ^ 28 : Nat) : ℚ) = 10 ^ (28 : Int) := by norm_num
    _ ≤ 10 ^ (digitCount s.digits - 1 + (s.exponent + k) : Int) :=
      zpow_le_zpow_right₀ (by norm_num) high
    _ = 10 ^ (digitCount s.digits - 1 : Int) * 10 ^ (s.exponent + k) := zpow_ten_add _ _
    _ ≤ s.digits * 10 ^ (s.exponent + k) := mul_le_mul_of_nonneg_right first (by positivity)

/-- At a place that is refused for being too low each double but zero has too many digits. -/
theorem great_of_far (h : Canonical b.mantissa b.exponent) (most : b.exponent ≤ greatestExponent)
    (far : farthestShift < k) :
    ((10 ^ 28 : Nat) : ℚ) ≤ (shortest b).digits * 10 ^ (shortest b).exponent * 10 ^ k := by
  have least := (range_of_holds h most (shortest_holds h)).1
  have places : (1075 + 28 : Int) ≤ k := by
    have limit : farthestShift = 2000054 := rfl
    omega
  have powers : (2 : ℚ) ^ (1075 : Int) ≤ 10 ^ (1075 : Int) :=
    zpow_le_zpow_left₀ (by decide) zero_le_two (by norm_num)
  calc ((10 ^ 28 : Nat) : ℚ) = 2 ^ (-1075 : Int) * (2 ^ (1075 : Int) * 10 ^ (28 : Int)) := by
        rw [zpow_neg, inv_mul_cancel_left₀ (by positivity)]
        norm_num
    _ ≤ 2 ^ (-1075 : Int) * (10 ^ (1075 : Int) * 10 ^ (28 : Int)) := by gcongr
    _ = 2 ^ (-1075 : Int) * 10 ^ (1075 + 28 : Int) := by rw [zpow_ten_add]
    _ ≤ 2 ^ (-1075 : Int) * 10 ^ k :=
      mul_le_mul_of_nonneg_left (zpow_le_zpow_right₀ (by norm_num) places) (by positivity)
    _ ≤ _ := mul_le_mul_of_nonneg_right least (by positivity)

/-! ## Texts of doubles -/

/-- The text of a double is how a number is written, with its sign. -/
def Writes (x : Float) (q : ℚ) : Prop :=
  ∃ s : Spelling, shortestText x = String.ofList s.chars ∧ q = s.value ∨
    shortestText x = String.ofList ('-' :: s.chars) ∧ q = -s.value

/-- A number with the sign of an exact number. -/
def Binary.signed (b : Binary) (q : ℚ) : ℚ := if b.negative then -q else q

theorem writes_signed (exact : binary? x = some b) :
    Writes x (b.signed ((shortest b).digits * 10 ^ (shortest b).exponent)) := by
  obtain ⟨s, chars, value, -⟩ := spells_magnitudeChars b
  refine ⟨s, ?_⟩
  have text : shortestText x =
      String.ofList ((if b.negative then ['-'] else []) ++ magnitudeChars b) := by
    rw [shortestText, exact]
  rw [text, Binary.signed, value, chars]
  cases b.negative with
  | false => exact .inl ⟨rfl, rfl⟩
  | true => exact .inr ⟨rfl, rfl⟩

/-! ## Rounding -/

/-- What a double is rounded to: the multiple of `10^(-k)` nearest to the number that its text
writes, as a double, if the multiple has at most 28 digits and `10^(-k)` is at most `10^999999`; else
the double itself. -/
structure RoundedHalfAway (x : Float) (k : Int) (q : ℚ) (n : ℤ) (y : Float) : Prop where
  writes : Writes x q
  nearest : NearestAway (q * 10 ^ k) n
  fits : -k ≤ 999999 → n.natAbs < 10 ^ 28 → Rounds (n * 10 ^ (-k)) y
  kept : ¬(-k ≤ 999999 ∧ n.natAbs < 10 ^ 28) → y = x

/-- The multiple of the place that the shortest decimal is nearest to, with the sign. -/
def Binary.multiple (b : Binary) (k : Int) : ℤ :=
  if b.negative then -(shortest b).inUnits (-k) else (shortest b).inUnits (-k)

theorem natAbs_multiple (b : Binary) (k : Int) :
    (b.multiple k).natAbs = (shortest b).inUnits (-k) := by
  rw [Binary.multiple]
  split
  · rw [Int.natAbs_neg, Int.natAbs_natCast]
  · exact Int.natAbs_natCast _

theorem nearestAway_multiple (b : Binary) (k : Int) :
    NearestAway (b.signed ((shortest b).digits * 10 ^ (shortest b).exponent) * 10 ^ k)
      (b.multiple k) := by
  have nearest := nearestAway_inUnits (shortest b) k
  rw [Binary.signed, Binary.multiple]
  split
  · rw [neg_mul]
    exact nearest.neg
  · exact nearest

theorem multiple_of_zero (zero : (shortest b).digits = 0) (k : Int) : b.multiple k = 0 := by
  have nearest := nearestAway_multiple b k
  have nothing : b.signed ((shortest b).digits * 10 ^ (shortest b).exponent) = 0 := by
    rw [zero, Nat.cast_zero, zero_mul, Binary.signed, neg_zero, ite_self]
  rw [nothing, zero_mul] at nearest
  exact nearest.eq_zero

theorem great_multiple (great : ((10 ^ 28 : Nat) : ℚ) ≤
    (shortest b).digits * 10 ^ (shortest b).exponent * 10 ^ k) :
    10 ^ 28 ≤ (b.multiple k).natAbs := by
  have le := (nearestAway_inUnits (shortest b) k).le (c := (10 ^ 28 : Nat)) great
  rw [natAbs_multiple]
  exact Int.ofNat_le.mp le

theorem rounds_multiple (b : Binary) (k : Int) :
    Rounds (b.multiple k * 10 ^ (-k)) (if b.negative then
      -nearestFloat ((shortest b).inUnits (-k)) (-k)
      else nearestFloat ((shortest b).inUnits (-k)) (-k)) := by
  have rounds := rounds_nearestFloat ((shortest b).inUnits (-k)) (-k)
  rw [Binary.multiple]
  cases b.negative with
  | false => exact rounds
  | true =>
    have rounds := rounds.neg
    rw [← neg_mul] at rounds
    simpa using rounds

variable {y : Float}

theorem rounds_of_some (exact : binary? x = some b) (some : b.roundHalfAway? k = some y) :
    (-k).natAbs ≤ farthestShift ∧ (b.multiple k).natAbs < 10 ^ 28 ∧
      Rounds (b.multiple k * 10 ^ (-k)) y := by
  unfold Binary.roundHalfAway? at some
  dsimp only at some
  split at some
  · cases some
  · next near =>
    refine ⟨Int.not_lt.mp near, ?_⟩
    split at some
    · next zero =>
      cases some
      have zero := beq_iff_eq.mp zero
      rw [multiple_of_zero zero, Int.cast_zero, zero_mul]
      refine ⟨by decide, ?_⟩
      rcases canonical_of_binary? exact with ⟨nothing, -⟩ | ⟨canonical, most⟩
      · have rounds := rounds_toFloat b
        rwa [Binary.value, nothing, Nat.cast_zero, zero_mul, neg_zero, ite_self] at rounds
      · exact absurd zero (shortest_digits_pos canonical most).ne'
    · split at some
      · cases some
      · split at some
        · cases some
        · next few =>
          cases some
          rw [← natAbs_multiple] at few
          exact ⟨digitCount_le_iff.mp (Nat.not_lt.mp few), rounds_multiple b k⟩

theorem not_fits_of_none (canonical : Canonical b.mantissa b.exponent)
    (most : b.exponent ≤ greatestExponent) (none : b.roundHalfAway? k = none) :
    farthestShift < -k ∨ 10 ^ 28 ≤ (b.multiple k).natAbs := by
  have pos := shortest_digits_pos canonical most
  unfold Binary.roundHalfAway? at none
  dsimp only at none
  split at none
  · next far =>
    rcases lt_or_ge farthestShift (-k) with high | notHigh
    · exact .inl high
    · exact .inr (great_multiple (great_of_far canonical most (by omega)))
  · rw [if_neg (by simpa using pos.ne')] at none
    split at none
    · next high => exact .inr (great_multiple (great_of_firstPlace pos (by omega)))
    · split at none
      · next many =>
        rw [← natAbs_multiple] at many
        exact .inr (Nat.not_lt.mp fun less => Nat.not_lt.mpr (digitCount_le_iff.mpr less) many)
      · cases none

/-- At all places that are not too high a double is rounded half away from zero. -/
theorem roundHalfAway?_rounded (finite : x.isFinite = true) (notHigh : unitIsTooGreat k = false) :
    ∃ q n y, roundHalfAway? x k = some y ∧ RoundedHalfAway x k q n y := by
  rw [← binary?_isSome] at finite
  obtain ⟨b, exact⟩ := Option.isSome_iff_exists.mp finite
  have result : roundHalfAway? x k = some ((b.roundHalfAway? k).getD x) := by
    rw [roundHalfAway?, notHigh, if_neg Bool.false_ne_true, exact, Option.bind_some]
  have limit : farthestShift = 2000054 := rfl
  have places : -k ≤ 999999 ∨ farthestShift < -k := by
    have outside : ¬(-2000054 ≤ k ∧ k < -999999) := by
      rw [← unitIsTooGreat_iff, notHigh]
      exact Bool.false_ne_true
    omega
  refine ⟨_, b.multiple k, _, result, writes_signed exact, nearestAway_multiple b k, ?_, ?_⟩
  · intro low few
    cases rounded : b.roundHalfAway? k with
    | some y => exact (rounds_of_some exact rounded).2.2
    | none =>
      rcases canonical_of_binary? exact with ⟨nothing, -⟩ | ⟨canonical, most⟩
      · have zero : (shortest b).digits = 0 := by simp [shortest, nothing]
        have value : exactValue x = 0 := by
          rw [exactValue_of_binary? exact, Binary.value, nothing, Nat.cast_zero, zero_mul, neg_zero,
            ite_self]
        have rounds := rounds_exactValue (isFinite_of_binary? exact)
        rwa [multiple_of_zero zero, Int.cast_zero, zero_mul, ← value]
      · rcases not_fits_of_none canonical most rounded with high | great
        · omega
        · exact absurd few (Nat.not_lt.mpr great)
  · intro unfit
    cases rounded : b.roundHalfAway? k with
    | none => rfl
    | some y =>
      obtain ⟨near, few, -⟩ := rounds_of_some exact rounded
      exact absurd ⟨places.resolve_right (by omega), few⟩ unfit

end LineCalc.Decimal
