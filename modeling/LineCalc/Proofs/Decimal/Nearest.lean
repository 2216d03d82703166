import LineCalc.Proofs.Decimal.ExactValue
import LineCalc.Proofs.Decimal.Hundredths
import LineCalc.Proofs.Decimal.Integer

/-!
# The nearest double

A number is rounded to the double that no other finite double is nearer to, one with an even mantissa
where two are as near; from half a step above the greatest double on it is rounded to infinity. That
is a property of the number and the double, without the places and bits of the computation. A double
is a multiple of the unit of the place that the number is rounded at, or further away from the number
than one of these multiples; so it is enough that rounding comes to the nearest integer at that place.

Results:
1. `isNearest_rounded`: a fraction is rounded to the nearest integer.
2. `rounds_positive`: rounding a fraction with enough bits comes to the nearest double.
3. `rounds_toFloat`, `rounds_nearestFloat`: so does rounding an exact number, and a decimal.
-/

namespace LineCalc.Decimal

open Float.Model (UnpackedFloat Format totalExponent)
open Float.Model.UnpackedFloat

/-- The mantissa of the double is even. -/
def HasEvenMantissa (x : Float) : Prop := ∀ b, binary? x = some b → b.mantissa % 2 = 0

/-- The double is the nearest to a number, and has an even mantissa if another one is as near. -/
structure Nearest (q : ℚ) (x : Float) : Prop where
  finite : x.isFinite = true
  near : ∀ y, y.isFinite = true → |q - exactValue x| ≤ |q - exactValue y|
  even : ∀ y, y.isFinite = true → exactValue y ≠ exactValue x →
    |q - exactValue y| = |q - exactValue x| → HasEvenMantissa x

/-- The double is what a number is rounded to: the nearest one, or infinity beyond the doubles. -/
structure Rounds (q : ℚ) (x : Float) : Prop where
  nearest : |q| < integerLimit → Nearest q x
  beyond : integerLimit ≤ |q| → x = if 0 < q then 1 / 0 else -(1 / 0)

section

variable {p q n m k : Nat} {e f : Int} {s : Sign} {x : Float} {z : ℚ}

/-! ## The nearest integer -/

theorem exists_isNearest (nonneg : 0 ≤ z) : ∃ n, IsNearest z n := by
  have low : (⌊z⌋₊ : ℚ) ≤ z := Nat.floor_le nonneg
  have high : z < ⌊z⌋₊ + 1 := Nat.lt_floor_add_one z
  rcases lt_trichotomy z (⌊z⌋₊ + 1 / 2) with below | tie | above
  · exact ⟨⌊z⌋₊, by linarith, by linarith, by rintro (tie | tie) <;> linarith⟩
  · rcases Nat.mod_two_eq_zero_or_one ⌊z⌋₊ with even | odd
    · exact ⟨⌊z⌋₊, by linarith, by linarith, fun _ => even⟩
    · refine ⟨⌊z⌋₊ + 1, ?_, ?_, fun _ => by omega⟩ <;> push_cast <;> linarith
  · refine ⟨⌊z⌋₊ + 1, ?_, ?_, ?_⟩ <;> push_cast
    · linarith
    · linarith
    · rintro (tie | tie) <;> linarith

theorem isNearest_rounded (pos : 0 < q) : IsNearest (p / q) (ofFraction p q).roundedMantissa := by
  obtain ⟨n, nearest⟩ := exists_isNearest (z := (p / q : ℚ)) (by positivity)
  rwa [roundedMantissa_ofFraction pos nearest]

/-- No integer is nearer than the nearest one, which is even if another one is as near. -/
theorem IsNearest.no_nearer (nearest : IsNearest z n) (j : Int) :
    |z - n| ≤ |z - j| ∧ ((j : ℚ) ≠ n → |z - j| = |z - n| → n % 2 = 0) := by
  obtain ⟨low, high, even⟩ := nearest
  have half : |z - n| ≤ 1 / 2 := abs_le.mpr ⟨by linarith, by linarith⟩
  by_cases same : j = n
  · rw [same, Int.cast_natCast]
    exact ⟨le_refl _, fun differ => absurd rfl differ⟩
  · have apart : (1 : ℚ) ≤ |(j : ℚ) - n| := by
      have apart : 1 ≤ |j - n| := Int.one_le_abs (sub_ne_zero.mpr same)
      exact_mod_cast apart
    have steps : |(j : ℚ) - n| ≤ |z - n| + |z - j| := by
      have split : (j : ℚ) - n = (z - n) - (z - j) := by ring
      rw [split]
      exact abs_sub _ _
    refine ⟨by linarith, fun _ tie => even ?_⟩
    have middle : |z - n| = 1 / 2 := by linarith
    rcases (abs_eq (by norm_num)).mp middle with up | down
    · exact .inr (by linarith)
    · exact .inl (by linarith)

/-! ## The nearest double at a place -/

theorem value_le (b : Binary) : b.value ≤ b.mantissa * 2 ^ b.exponent := by
  have nonneg : (0 : ℚ) ≤ b.mantissa * 2 ^ b.exponent := by positivity
  rw [Binary.value]
  split <;> linarith

/-- A double is a multiple of the unit of a place, or less than one with a mantissa of 53 bits. -/
theorem multiple_or_less (finite : x.isFinite = true) (t : Int) :
    (∃ j : Int, exactValue x = j * 2 ^ t) ∨ -1074 < t ∧ exactValue x < 2 ^ 52 * 2 ^ t := by
  rw [← binary?_isSome] at finite
  obtain ⟨b, exact⟩ := Option.isSome_iff_exists.mp finite
  rw [exactValue_of_binary? exact]
  by_cases high : t ≤ b.exponent
  · exact .inl ⟨b.atExponent t, (value_atExponent high).symm⟩
  rcases canonical_of_binary? exact with ⟨zero, -⟩ | ⟨canonical, -⟩
  · refine .inl ⟨0, ?_⟩
    simp [Binary.value, zero]
  · have least := canonical.least
    refine .inr ⟨by omega, ?_⟩
    have short : (b.mantissa : ℚ) < 2 ^ 53 := by exact_mod_cast canonical.small
    have lower : (2 : ℚ) ^ b.exponent ≤ 2 ^ (t - 1) := zpow_le_zpow_right₀ one_le_two (by omega)
    calc b.value ≤ b.mantissa * 2 ^ b.exponent := value_le b
      _ < 2 ^ 53 * 2 ^ b.exponent := mul_lt_mul_of_pos_right short (by positivity)
      _ ≤ 2 ^ 53 * 2 ^ (t - 1) := mul_le_mul_of_nonneg_left lower (by positivity)
      _ = 2 ^ 52 * 2 ^ t := by
        rw [zpow_sub₀ two_ne_zero]
        ring

/-- The nearest integer at the place that a number is rounded at gives the nearest double. -/
theorem nearest_at_place {t : Int} (low : t = -1074 ∨ 2 ^ 52 ≤ z) (integer : IsNearest z n)
    (finite : x.isFinite = true) (value : exactValue x = n * 2 ^ t)
    (even : n % 2 = 0 → HasEvenMantissa x) : Nearest (z * 2 ^ t) x := by
  have unit : (0 : ℚ) < 2 ^ t := by positivity
  have distance (w : ℚ) : |z * 2 ^ t - w * 2 ^ t| = |z - w| * 2 ^ t := by
    rw [← sub_mul, abs_mul, abs_of_pos unit]
  -- A smaller double is further away than the multiple with a mantissa of 53 bits.
  have less {y : Float} (above : -1074 < t) (small : exactValue y < 2 ^ 52 * 2 ^ t) :
      |z * 2 ^ t - n * 2 ^ t| < |z * 2 ^ t - exactValue y| := by
    have full : 2 ^ 52 ≤ z := low.resolve_left (by omega)
    have nearer := (integer.no_nearer (2 ^ 52)).1
    rw [Int.cast_pow, Int.cast_ofNat, abs_of_nonneg (sub_nonneg.mpr full)] at nearer
    rw [distance]
    calc |z - n| * 2 ^ t ≤ (z - 2 ^ 52) * 2 ^ t := mul_le_mul_of_nonneg_right nearer unit.le
      _ < z * 2 ^ t - exactValue y := by linarith
      _ ≤ |z * 2 ^ t - exactValue y| := le_abs_self _
  refine ⟨finite, fun y finiteY => ?_, fun y finiteY differ tie => even ?_⟩
  · rw [value]
    rcases multiple_or_less finiteY t with ⟨j, multiple⟩ | ⟨above, small⟩
    · rw [multiple, distance, distance]
      exact mul_le_mul_of_nonneg_right (integer.no_nearer j).1 unit.le
    · exact (less above small).le
  · rw [value] at differ tie
    rcases multiple_or_less finiteY t with ⟨j, multiple⟩ | ⟨above, small⟩
    · rw [multiple] at differ tie
      rw [distance, distance] at tie
      refine (integer.no_nearer j).2 (fun same => differ (by rw [same])) ?_
      exact mul_right_cancel₀ unit.ne' tie
    · exact absurd tie (less above small).ne'

/-! ## The limit -/

theorem zpow_succ_two (t : Int) : (2 : ℚ) ^ (t + 1) = 2 * 2 ^ t := by
  rw [zpow_add_one₀ two_ne_zero, mul_comm]

theorem cast_two_pow_sub {i j : Nat} (le : j ≤ i) :
    ((2 ^ i - 2 ^ j : Nat) : ℚ) = 2 ^ i - 2 ^ j := by
  rw [Nat.cast_sub (Nat.pow_le_pow_right Nat.two_pos le), Nat.cast_pow, Nat.cast_pow, Nat.cast_two]

theorem integerLimit_eq : (integerLimit : ℚ) = (2 ^ 53 - 1 / 2) * 2 ^ (971 : Int) := by
  have bits (a : ℚ) : a ^ 1024 = a ^ 54 * a ^ 970 := pow_add a 54 970
  have cast : (2 : ℚ) ^ (971 : Int) = 2 * 2 ^ 970 := by
    rw [← zpow_natCast]
    exact zpow_succ_two 970
  rw [integerLimit, cast_two_pow_sub (by decide), cast, bits]
  generalize (2 : ℚ) ^ 970 = u
  ring

theorem limit_pos : (0 : ℚ) < integerLimit := Nat.cast_pos.mpr integerLimit_pos

theorem less_than_limit {t : Int} (low : t ≤ 970) (short : z < 2 ^ 53) :
    z * 2 ^ t < integerLimit := by
  have lower : (2 : ℚ) ^ t ≤ 2 ^ (970 : Int) := zpow_le_zpow_right₀ one_le_two low
  have unit : (0 : ℚ) < 2 ^ (970 : Int) := by positivity
  calc z * 2 ^ t < 2 ^ 53 * 2 ^ t := mul_lt_mul_of_pos_right short (by positivity)
    _ ≤ 2 ^ 53 * 2 ^ (970 : Int) := mul_le_mul_of_nonneg_left lower (by positivity)
    _ ≤ integerLimit := by
      rw [integerLimit_eq, show (971 : Int) = 970 + 1 from rfl, zpow_succ_two]
      generalize (2 : ℚ) ^ (970 : Int) = u at unit
      linarith

/-- A number is beyond the doubles exactly if the integer that it is rounded to is. -/
theorem less_than_limit_iff {t : Int} (low : t = -1074 ∨ 2 ^ 52 ≤ z) (short : z < 2 ^ 53)
    (integer : IsNearest z (m * 2 ^ k)) (canonical : Canonical m (t + k))
    (carry : k = 0 ∨ k = 1 ∧ m = 2 ^ 52) :
    z * 2 ^ t < integerLimit ↔ t + k ≤ greatestExponent := by
  rw [greatestExponent]
  rcases lt_trichotomy t 971 with lower | greatest | greater
  · refine iff_of_true (less_than_limit (by omega) short) ?_
    rcases carry with rfl | ⟨rfl, -⟩ <;> omega
  · subst greatest
    have unit : (0 : ℚ) < 2 ^ (971 : Int) := by positivity
    rw [integerLimit_eq, mul_lt_mul_iff_left₀ unit]
    rcases carry with rfl | ⟨rfl, rfl⟩
    · refine iff_of_true ?_ (by decide)
      rw [pow_zero, Nat.mul_one] at integer
      have most : (m : ℚ) + 1 ≤ 2 ^ 53 := by exact_mod_cast canonical.small
      refine lt_of_le_of_ne (by linarith [integer.high]) fun middle => ?_
      -- In the middle the mantissa would be even.
      have greatest : (m : ℚ) + 1 = 2 ^ 53 := by linarith [integer.high]
      have greatest : m + 1 = 2 ^ 53 := by exact_mod_cast greatest
      have even := integer.even (.inr (by linarith))
      omega
    · refine iff_of_false (not_lt.mpr ?_) (by decide)
      have low := integer.low
      push_cast at low
      linarith
  · refine iff_of_false (not_lt.mpr ?_) (by omega)
    have full : 2 ^ 52 ≤ z := low.resolve_left (by omega)
    have higher : (2 : ℚ) ^ (972 : Int) ≤ 2 ^ t := zpow_le_zpow_right₀ one_le_two greater
    have unit : (0 : ℚ) < 2 ^ (971 : Int) := by positivity
    calc (integerLimit : ℚ) ≤ 2 ^ 52 * 2 ^ (972 : Int) := by
          rw [integerLimit_eq, show (972 : Int) = 971 + 1 from rfl, zpow_succ_two]
          generalize (2 : ℚ) ^ (971 : Int) = u at unit
          linarith
      _ ≤ 2 ^ 52 * 2 ^ t := mul_le_mul_of_nonneg_left higher (by positivity)
      _ ≤ z * 2 ^ t := mul_le_mul_of_nonneg_right full (by positivity)

/-! ## Rounding -/

theorem Rounds.of_less {r : ℚ} (nonneg : 0 ≤ r) (less : r < integerLimit) (nearest : Nearest r x) :
    Rounds r x := by
  refine ⟨fun _ => nearest, fun beyond => ?_⟩
  rw [abs_of_nonneg nonneg] at beyond
  exact absurd less (not_lt.mpr beyond)

/-- The parts of a double, from its bits. -/
theorem binary?_pack (canonical : Canonical m e) (most : e ≤ greatestExponent) :
    binary? (.ofModel (.pack (.finite .positive m e canonical.pos))) = some ⟨false, m, e⟩ := by
  have unpacked : (Float.ofModel (.pack (.finite .positive m e canonical.pos))).toModel.unpack =
      .finite .positive m e canonical.pos := unpack_pack_canonical canonical most .positive
  exact binary?_of_unpack unpacked

theorem infinite_pack {pos : 0 < m} (great : greatestExponent < e) :
    Float.ofModel (.pack (.finite .positive m e pos)) = 1 / 0 := by
  have infinite : Float.Model.pack (.finite .positive m e pos) = .pack (.infinity .positive) := by
    simp only [Float.Model.pack, pack_of_greater great]
    rfl
  rw [infinite]
  rfl

theorem nearest_pack {t : Int} (low : t = -1074 ∨ 2 ^ 52 ≤ z) (integer : IsNearest z (m * 2 ^ k))
    (canonical : Canonical m (t + k)) (carry : k = 0 ∨ k = 1 ∧ m = 2 ^ 52)
    (most : t + k ≤ greatestExponent) :
    Nearest (z * 2 ^ t) (.ofModel (.pack (.finite .positive m (t + k) canonical.pos))) := by
  have exact := binary?_pack canonical most
  have finite : (Float.ofModel (.pack (.finite .positive m (t + k) canonical.pos))).isFinite =
      true := by
    rw [← binary?_isSome, exact]
    rfl
  refine nearest_at_place low integer finite ?_ fun even b parts => ?_
  · rw [exactValue_of_binary? exact, Binary.value, if_neg Bool.false_ne_true, zpow_add₀ two_ne_zero, zpow_natCast]
    push_cast
    ring
  · cases exact.symm.trans parts
    rcases carry with rfl | ⟨-, rfl⟩
    · simpa using even
    · show 2 ^ 52 % 2 = 0
      norm_num

theorem nearest_zero (integer : IsNearest z 0) : Nearest (z * 2 ^ (-1074 : Int)) 0 := by
  have value : exactValue 0 = (0 : Nat) * 2 ^ (-1074 : Int) := by
    rw [exactValue_zero, Nat.cast_zero, zero_mul]
  refine nearest_at_place (.inl rfl) integer rfl value ?_
  intro _ b parts
  cases parts
  rfl

/-- A fraction with enough bits is rounded to the nearest double. -/
theorem rounds_positive (pos : 0 < q)
    (enough : f ≤ Format.binary64.targetExponent (totalExponent (p / q) f)) :
    Rounds ((p / q : ℚ) * 2 ^ f) (.ofModel (.pack
      (roundWithAccuracy .binary64 .positive (p / q) f (accuracyOfFraction (p % q) q)))) := by
  obtain ⟨d, place⟩ := Int.le.dest enough
  have steps : 0 < q * 2 ^ d := Nat.mul_pos pos (Nat.two_pow_pos d)
  have integer := isNearest_rounded (p := p) steps
  obtain ⟨short, low⟩ := whole_at_place place.symm
  rw [whole_lt_iff steps] at short
  rw [le_whole_iff steps] at low
  have rounding := round_at_place place.symm pos .positive
  have nonneg : (0 : ℚ) ≤ p / (q * 2 ^ d : Nat) := by positivity
  rw [value_at_place pos (d := d)]
  generalize (p / (q * 2 ^ d : Nat) : ℚ) = z at integer short low nonneg
  have nonneg : 0 ≤ z * 2 ^ (f + d) := mul_nonneg nonneg (by positivity)
  rcases rounding with ⟨zero, rounds⟩ | ⟨m, k, pos', rounded, canonical, carry, rounds⟩
  · rw [zero] at integer
    rw [rounds]
    have small : z ≤ 1 / 2 := by simpa using integer.high
    have lowest : f + d = -1074 := low.resolve_right fun full => by linarith
    refine .of_less nonneg (less_than_limit (by omega) short) ?_
    rw [lowest]
    exact nearest_zero integer
  · rw [rounded] at integer
    rw [rounds]
    have limit := less_than_limit_iff low short integer canonical carry
    by_cases most : f + d + k ≤ greatestExponent
    · exact .of_less nonneg (limit.mpr most) (nearest_pack low integer canonical carry most)
    · have beyond : integerLimit ≤ z * 2 ^ (f + d) := not_lt.mp fun less => most (limit.mp less)
      have positive : 0 < z * 2 ^ (f + d) := limit_pos.trans_le beyond
      refine ⟨fun less => ?_, fun _ => ?_⟩
      · rw [abs_of_nonneg nonneg] at less
        exact absurd beyond (not_le.mpr less)
      · rw [if_pos positive]
        exact infinite_pack (Int.not_le.mp most)

/-! ## Signs -/

theorem HasEvenMantissa.neg (even : HasEvenMantissa x) : HasEvenMantissa (-x) := by
  intro b parts
  rw [binary?_neg] at parts
  obtain ⟨a, found, rfl⟩ := Option.map_eq_some_iff.mp parts
  exact even a found

theorem Nearest.neg {r : ℚ} (h : Nearest r x) : Nearest (-r) (-x) := by
  have distance (y : Float) : |-r - exactValue y| = |r - exactValue (-y)| := by
    rw [exactValue_neg, ← abs_neg]
    congr 1
    ring
  refine ⟨(isFinite_neg x).trans h.finite, fun y finite => ?_, fun y finite differ tie => ?_⟩
  · rw [distance, distance, neg_neg_double]
    exact h.near (-y) ((isFinite_neg y).trans finite)
  · rw [distance, distance, neg_neg_double] at tie
    have differ : exactValue (-y) ≠ exactValue x := by
      rw [exactValue_neg] at differ ⊢
      exact fun same => differ (by rw [← same, neg_neg])
    exact (h.even (-y) ((isFinite_neg y).trans finite) differ tie).neg

theorem Rounds.neg {r : ℚ} (h : Rounds r x) : Rounds (-r) (-x) := by
  refine ⟨fun less => (h.nearest (by rwa [abs_neg] at less)).neg, fun beyond => ?_⟩
  rw [abs_neg] at beyond
  have nonzero : r ≠ 0 := by
    rintro rfl
    rw [abs_zero] at beyond
    exact absurd beyond (not_le.mpr limit_pos)
  rw [h.beyond beyond]
  rcases lt_or_gt_of_ne nonzero with negative | positive
  · rw [if_neg (not_lt.mpr negative.le), if_pos (neg_pos.mpr negative), neg_neg_double]
  · rw [if_pos positive, if_neg (not_lt.mpr (neg_nonpos.mpr positive.le))]

/-! ## Exact numbers -/

theorem totalExponent_shifted (pos : 0 < m) (e : Int) (k : Nat) :
    totalExponent (m * 2 ^ k) (e - k) = totalExponent m e := by
  simp only [totalExponent, log2_mul_two_pow pos]
  omega

theorem rounds_round (pos : 0 < m) (e : Int) :
    Rounds (m * 2 ^ e) (.ofModel (.pack (UnpackedFloat.round .binary64 .positive m e))) := by
  let k := (e - Format.binary64.targetExponent (totalExponent m e)).toNat
  have computed : UnpackedFloat.round .binary64 .positive m e =
      roundWithAccuracy .binary64 .positive (m * 2 ^ k) (e - k) .exact := by
    simp only [UnpackedFloat.round, decreaseExponent, Nat.shiftLeft_eq, k]
  have enough : e - k ≤
      Format.binary64.targetExponent (totalExponent (m * 2 ^ k / 1) (e - k)) := by
    rw [Nat.div_one, totalExponent_shifted pos]
    omega
  have value : ((m * 2 ^ k : Nat) / (1 : Nat) : ℚ) * 2 ^ (e - k) = m * 2 ^ e := by
    rw [Nat.cast_one, div_one, zpow_sub₀ two_ne_zero, zpow_natCast]
    push_cast
    field_simp
  have rounds := rounds_positive Nat.one_pos enough
  rw [value, Nat.mod_one, Nat.div_one] at rounds
  rw [computed]
  exact rounds

theorem rounds_zero : Rounds 0 0 := by
  have integer : IsNearest (0 : ℚ) 0 := ⟨by norm_num, by norm_num, fun _ => rfl⟩
  have nearest := nearest_zero integer
  rw [zero_mul] at nearest
  exact .of_less (le_refl _) limit_pos nearest

theorem rounds_toFloat_of_positive {b : Binary} (positive : b.negative = false) :
    Rounds b.value b.toFloat := by
  rw [Binary.value, positive, if_neg Bool.false_ne_true, Binary.toFloat, positive]
  split
  · next zero =>
    rw [beq_iff_eq.mp zero, Nat.cast_zero, zero_mul]
    exact rounds_zero
  · next nonzero =>
    have nonzero : b.mantissa ≠ 0 := fun zero => nonzero (beq_iff_eq.mpr zero)
    exact rounds_round (Nat.pos_of_ne_zero nonzero) b.exponent

/-- An exact number is rounded to the nearest double. -/
theorem rounds_toFloat (b : Binary) : Rounds b.value b.toFloat := by
  cases sign : b.negative with
  | false => exact rounds_toFloat_of_positive sign
  | true =>
    have opposite : b.neg.negative = false := by rw [Binary.neg, sign, Bool.not_true]
    have rounds := (rounds_toFloat_of_positive opposite).neg
    rwa [value_neg, neg_neg, toFloat_neg, neg_neg_double] at rounds

/-! ## Decimals -/

theorem RoundedFrom.rounds {y : ℚ} {x : Float} (h : RoundedFrom y x) : Rounds y x := by
  obtain ⟨p, q, f, pos, rfl, enough, rfl⟩ := h
  exact rounds_positive pos enough

theorem integerLimit_le : (integerLimit : ℚ) ≤ 2 ^ (1025 : Int) := by
  calc (integerLimit : ℚ) = 2 ^ 1024 - 2 ^ 970 := cast_two_pow_sub (by decide)
    _ ≤ 2 ^ 1024 := sub_le_self _ (by positivity)
    _ = 2 ^ (1024 : Int) := (zpow_natCast 2 1024).symm
    _ ≤ 2 ^ (1025 : Int) := zpow_le_zpow_right₀ one_le_two (by decide)

/-- A number less than half the least double is rounded to zero. -/
theorem rounds_to_zero {y : ℚ} (nonneg : 0 ≤ y) (small : y < 2 ^ (-1075 : Int)) : Rounds y 0 := by
  have unit : (0 : ℚ) < 2 ^ (-1074 : Int) := by positivity
  have half : (2 : ℚ) ^ (-1074 : Int) = 2 * 2 ^ (-1075 : Int) := by
    rw [← zpow_succ_two]
    rfl
  obtain ⟨z, rfl⟩ : ∃ z : ℚ, y = z * 2 ^ (-1074 : Int) :=
    ⟨y / 2 ^ (-1074 : Int), (div_mul_cancel₀ _ unit.ne').symm⟩
  have nonneg' : 0 ≤ z := nonneg_of_mul_nonneg_left nonneg unit
  have small' : z < 1 / 2 := by
    rw [half] at small
    have step : (0 : ℚ) < 2 ^ (-1075 : Int) := by positivity
    by_contra large
    have large : 1 / 2 ≤ z := not_lt.mp large
    have more := mul_le_mul_of_nonneg_right large (mul_pos two_pos step).le
    linarith
  refine .of_less nonneg (less_than_limit (by decide) (by linarith)) (nearest_zero ⟨?_, ?_, ?_⟩)
  · push_cast
    linarith
  · push_cast
    linarith
  · exact fun _ => rfl

/-- A decimal is rounded to the nearest double. -/
theorem rounds_nearestFloat (digits : Nat) (exponent : Int) :
    Rounds (digits * 10 ^ exponent) (nearestFloat digits exponent) := by
  rcases Nat.eq_zero_or_pos digits with rfl | digitsPos
  · rw [nearestFloat_zero, Nat.cast_zero, zero_mul]
    exact rounds_zero
  have nonzero := Nat.ne_of_gt digitsPos
  have nonneg : (0 : ℚ) ≤ digits * 10 ^ exponent := by positivity
  by_cases great : exponent > 2 ^ 11
  · have large : nearestFloat digits exponent = 1 / 0 := by
      rw [nearestFloat_of_large (by omega), UnpackedFloat.ofScientific, dif_neg nonzero, if_pos great]
      rfl
    have beyond := beyond_of_great digitsPos great
    have limit := integerLimit_le.trans beyond
    rw [large]
    refine ⟨fun less => ?_, fun _ => (if_pos (limit_pos.trans_le limit)).symm⟩
    rw [abs_of_nonneg nonneg] at less
    exact absurd limit (not_le.mpr less)
  by_cases small : exponent < -(2 ^ 11 + digits.log2)
  · have none : nearestFloat digits exponent = 0 := by
      rw [nearestFloat_of_large (by omega), UnpackedFloat.ofScientific, dif_neg nonzero,
        if_neg great, if_pos small]
      rfl
    rw [none]
    exact rounds_to_zero nonneg (below_of_small small)
  exact (roundedFrom_nearestFloat digitsPos great small).rounds

/-! ## Doubles themselves -/

theorem abs_exactValue_lt (finite : x.isFinite = true) : |exactValue x| < integerLimit := by
  rw [← binary?_isSome] at finite
  obtain ⟨b, exact⟩ := Option.isSome_iff_exists.mp finite
  have magnitude : |b.value| = b.mantissa * 2 ^ b.exponent := by
    have nonneg : (0 : ℚ) ≤ b.mantissa * 2 ^ b.exponent := by positivity
    rw [Binary.value]
    split
    · rw [abs_neg, abs_of_nonneg nonneg]
    · rw [abs_of_nonneg nonneg]
  rw [exactValue_of_binary? exact, magnitude]
  rcases canonical_of_binary? exact with ⟨zero, -⟩ | ⟨canonical, most⟩
  · rw [zero, Nat.cast_zero, zero_mul]
    exact limit_pos
  · have short : (b.mantissa : ℚ) + 1 ≤ 2 ^ 53 := by exact_mod_cast canonical.small
    have higher : (2 : ℚ) ^ b.exponent ≤ 2 ^ (971 : Int) := zpow_le_zpow_right₀ one_le_two most
    rw [integerLimit_eq]
    calc b.mantissa * (2 : ℚ) ^ b.exponent ≤ b.mantissa * 2 ^ (971 : Int) :=
          mul_le_mul_of_nonneg_left higher (Nat.cast_nonneg _)
      _ < (2 ^ 53 - 1 / 2) * 2 ^ (971 : Int) := mul_lt_mul_of_pos_right (by linarith) (by positivity)

/-- A double is the one that its own value is rounded to. -/
theorem rounds_exactValue (finite : x.isFinite = true) : Rounds (exactValue x) x := by
  refine ⟨fun _ => ⟨finite, fun y _ => ?_, fun y _ differ tie => ?_⟩, fun beyond => ?_⟩
  · rw [sub_self, abs_zero]
    exact abs_nonneg _
  · rw [sub_self, abs_zero, abs_eq_zero, sub_eq_zero] at tie
    exact absurd tie.symm differ
  · exact absurd (abs_exactValue_lt finite) (not_lt.mpr beyond)

/-- A number is rounded to a finite double exactly if it is not beyond the doubles. -/
theorem Rounds.isFinite_iff {r : ℚ} (h : Rounds r x) : x.isFinite = true ↔ |r| < integerLimit := by
  refine ⟨fun finite => ?_, fun less => (h.nearest less).finite⟩
  by_contra beyond
  rw [h.beyond (not_lt.mp beyond)] at finite
  split at finite <;> exact Bool.false_ne_true finite

end

end LineCalc.Decimal
