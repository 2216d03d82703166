import LineCalc.Proofs.Decimal.Digits
import LineCalc.Proofs.Decimal.Scientific

/-!
# The shortest decimal of a double

Of decimals with seventeen digits one is always less than a quarter of a step away from a double, for
ten to the sixteenth is more than two to the fifty-third. So the search for a shorter one ends with
a decimal in the interval around the double.

Results:
1. `inside_iff`: the scales compare decimals with doubles.
2. `leadingPlace_le`: the first digit of a double is found.
3. `shortest_holds`: the shortest decimal lies in the interval around the double.
4. `nearestFloat_of_shortest`: so the double is read from it.
-/

namespace LineCalc.Decimal

variable {m : Nat} {e k : Int} {y : ℚ} {b : Binary} {r : Rounding}

/-! ## Scales -/

theorem scales_pos (k e : Int) : 0 < (scales k e).1 ∧ 0 < (scales k e).2 :=
  ⟨Nat.mul_pos (Nat.pow_pos (by decide)) (Nat.two_pow_pos _),
    Nat.mul_pos (Nat.two_pow_pos _) (Nat.pow_pos (by decide))⟩

/-- The ratio of the scales is that of the units. -/
theorem scales_ratio (k e : Int) :
    ((scales k e).2 : ℚ) * 10 ^ k = 2 ^ e * (scales k e).1 := by
  have ten : ((10 : ℚ) ^ (-k).toNat) ≠ 0 := by positivity
  have two : ((2 : ℚ) ^ (-e).toNat) ≠ 0 := by positivity
  rw [zpow_eq_div (by norm_num : (10 : ℚ) ≠ 0), zpow_eq_div two_ne_zero, scales]
  simp only [tenTo, twoTo, Nat.pow_eq]
  push_cast
  field_simp

/-- The scales compare multiples of a power of two with those of a power of ten. -/
theorem scales_compare (a c : Nat) :
    (a * (scales k e).2 < c * (scales k e).1 ↔ (a : ℚ) * 2 ^ e < c * 10 ^ k) ∧
      (c * (scales k e).1 < a * (scales k e).2 ↔ (c : ℚ) * 10 ^ k < a * 2 ^ e) := by
  have unitPos : (0 : ℚ) < (scales k e).1 := Nat.cast_pos.mpr (scales_pos k e).1
  have tenPos : (0 : ℚ) < 10 ^ k := by positivity
  have left : (a : ℚ) * 2 ^ e * (scales k e).1 = (a * (scales k e).2 : Nat) * 10 ^ k := by
    rw [mul_assoc, ← scales_ratio]
    push_cast
    ring
  have right : (c : ℚ) * 10 ^ k * (scales k e).1 = (c * (scales k e).1 : Nat) * 10 ^ k := by
    push_cast
    ring
  constructor
  · rw [← mul_lt_mul_iff_left₀ unitPos, left, right, mul_lt_mul_iff_left₀ tenPos, Nat.cast_lt]
  · rw [← mul_lt_mul_iff_left₀ unitPos, left, right, mul_lt_mul_iff_left₀ tenPos, Nat.cast_lt]

/-! ## The neighbours on a grid -/

/-- A point of the grid of `10^k` lies in the interval, by the scales. -/
def Rounding.inside (r : Rounding) (k : Int) (c : Nat) : Bool :=
  let (decimalUnit, binaryUnit) := scales k r.exponent
  let x := c * decimalUnit
  if r.closed then r.low * binaryUnit ≤ x && x ≤ r.high * binaryUnit
  else r.low * binaryUnit < x && x < r.high * binaryUnit

/-- The point of the grid of `10^k` at the middle of the interval, or next below it. -/
def Rounding.below (r : Rounding) (k : Int) : Nat :=
  r.middle * (scales k r.exponent).2 / (scales k r.exponent).1

theorem inside_iff {c : Nat} : r.inside k c = true ↔ r.Holds (c * 10 ^ k) := by
  obtain ⟨aboveLow, belowLow⟩ := scales_compare (k := k) (e := r.exponent) r.low c
  obtain ⟨belowHigh, aboveHigh⟩ := scales_compare (k := k) (e := r.exponent) r.high c
  unfold Rounding.inside Rounding.Holds
  dsimp only
  split
  · rw [Bool.and_eq_true, decide_eq_true_iff, decide_eq_true_iff, ← not_lt, belowLow, ← not_lt,
      belowHigh, not_lt, not_lt]
  · rw [Bool.and_eq_true, decide_eq_true_iff, decide_eq_true_iff, aboveLow, aboveHigh]

theorem onGrid_eq (r : Rounding) (k : Int) : ∃ nearer : Bool, r.onGrid k =
    if r.inside k (r.below k) && (nearer || !r.inside k (r.below k + 1)) then some (r.below k)
    else if r.inside k (r.below k + 1) then some (r.below k + 1)
    else none :=
  ⟨_, rfl⟩

theorem onGrid_holds {c : Nat} (found : r.onGrid k = some c) : r.Holds (c * 10 ^ k) := by
  obtain ⟨nearer, eq⟩ := onGrid_eq r k
  rw [eq] at found
  rw [← inside_iff]
  split at found
  · next below =>
    cases found
    exact (Bool.and_eq_true_iff.mp below).1
  · split at found
    · next above =>
      cases found
      exact above
    · cases found

theorem exists_onGrid
    (holds : r.Holds (r.below k * 10 ^ k) ∨ r.Holds ((r.below k + 1 : Nat) * 10 ^ k)) :
    ∃ c, r.onGrid k = some c := by
  obtain ⟨nearer, eq⟩ := onGrid_eq r k
  rw [← inside_iff, ← inside_iff] at holds
  rw [eq]
  cases above : r.inside k (r.below k + 1) with
  | true => split <;> exact ⟨_, rfl⟩
  | false =>
    have below : r.inside k (r.below k) = true := holds.resolve_right (by simp [above])
    exact ⟨r.below k, by simp [below]⟩

/-! ## Seventeen digits -/

/-- A number lies in the interval around a double if it is nearer to it than a quarter of the step of
the double is at most. -/
theorem holds_of_near (h : Canonical m e) (near : |y - m * 2 ^ e| < m * 2 ^ e / 2 ^ 54) :
    (Rounding.around m e).Holds y := by
  have unitPos : (0 : ℚ) < 2 ^ e := by positivity
  have most : (m : ℚ) < 2 ^ 53 := by exact_mod_cast h.small
  have half : (m : ℚ) * 2 ^ e / 2 ^ 54 < 2 ^ e / 2 := by
    have product : (m : ℚ) * 2 ^ e < 2 ^ 53 * 2 ^ e := mul_lt_mul_of_pos_right most unitPos
    linarith
  obtain ⟨above, below⟩ := abs_lt.mp near
  have low : ((Rounding.around m e).low : ℚ) * 2 ^ (e - 2) < y := by
    rw [low_around h.pos, quarter_step]
    split
    · next denser =>
      have power : (m : ℚ) = 2 ^ 52 := by exact_mod_cast denser.1
      rw [power] at above ⊢
      linarith
    · linarith
  have high : y < (Rounding.around m e).high * 2 ^ (e - 2) := by
    rw [high_around, quarter_step]
    linarith
  unfold Rounding.Holds
  split
  · exact ⟨low.le, high.le⟩
  · exact ⟨low, high⟩

/-- On a grid that is fine enough one of the neighbours of a double is near. -/
theorem near_on_grid (fine : (10 : ℚ) ^ k * 2 ^ 53 < m * 2 ^ e) :
    let c := (Rounding.around m e).below k
    |(c : ℚ) * 10 ^ k - m * 2 ^ e| < m * 2 ^ e / 2 ^ 54 ∨
      |((c + 1 : Nat) : ℚ) * 10 ^ k - m * 2 ^ e| < m * 2 ^ e / 2 ^ 54 := by
  intro c
  have unitPos := (scales_pos k (e - 2)).1
  have middle : ((4 * m : Nat) : ℚ) * 2 ^ (e - 2) = m * 2 ^ e := by
    rw [quarter_step]
    push_cast
    ring
  have below : (c : ℚ) * 10 ^ k ≤ m * 2 ^ e := by
    rw [← middle, ← not_lt, ← (scales_compare (4 * m) c).1, not_lt]
    exact Nat.div_mul_le_self _ _
  have above : (m : ℚ) * 2 ^ e < (c + 1 : Nat) * 10 ^ k := by
    rw [← middle, ← (scales_compare (4 * m) (c + 1)).1]
    exact (Nat.div_lt_iff_lt_mul unitPos).mp (Nat.lt_succ_self _)
  push_cast at above ⊢
  -- The neighbours are a step of the grid apart, so one of them is within half a step.
  rcases le_or_gt ((m : ℚ) * 2 ^ e - c * 10 ^ k) ((10 : ℚ) ^ k / 2) with near | far
  · refine .inl (abs_lt.mpr ⟨by linarith, by linarith⟩)
  · refine .inr (abs_lt.mpr ⟨by linarith, by linarith⟩)

/-! ## The place of the first digit -/

theorem digitCount_le {n : Nat} (pos : 0 < n) : (10 : ℚ) ^ (digitCount n - 1 : Int) ≤ n := by
  have count : digitCount n = (Nat.toDigits 10 n).length := by
    rw [digitCount, if_neg (by simpa using Nat.ne_of_gt pos)]
  have least : 10 ^ (digitCount n - 1) ≤ n := by
    by_cases single : digitCount n - 1 = 0
    · rw [single]
      exact pos
    · rw [← Nat.not_lt, ← Nat.length_toDigits_le_iff (by decide) (Nat.pos_of_ne_zero single)]
      omega
  calc (10 : ℚ) ^ (digitCount n - 1 : Int) ≤ 10 ^ ((digitCount n - 1 : Nat) : Int) :=
        zpow_le_zpow_right₀ (by norm_num) (by omega)
    _ ≤ n := by
      rw [zpow_natCast]
      exact_mod_cast least

theorem fraction_value (b : Binary) :
    (b.fraction.1 / b.fraction.2 : ℚ) = b.mantissa * 2 ^ b.exponent := by
  rw [zpow_eq_div two_ne_zero, ← mul_div_assoc]
  simp [Binary.fraction, twoTo]

theorem fraction_pos (b : Binary) : 0 < b.fraction.2 := Nat.two_pow_pos _

/-- The place of the first digit of a fraction, found after enough places of it. -/
theorem leadingPlace_fraction {p q : Nat} (pos : 0 < q) (k : Nat) (some : q ≤ p * tenTo k) :
    (10 : ℚ) ^ (digitCount (p * tenTo k / q) - k - 1 : Int) ≤ p / q := by
  have tenPos : (0 : ℚ) < 10 ^ k := by positivity
  rw [sub_right_comm, zpow_sub₀ (by norm_num), zpow_natCast, div_le_iff₀ tenPos]
  calc (10 : ℚ) ^ (digitCount (p * tenTo k / q) - 1 : Int) ≤ (p * tenTo k / q : Nat) :=
        digitCount_le (Nat.div_pos some pos)
    _ ≤ (p * tenTo k : Nat) / q := Nat.cast_div_le
    _ = p / q * 10 ^ k := by
      rw [tenTo, Nat.pow_eq]
      push_cast
      ring

theorem twoTo_le_tenTo {n k : Nat} (few : n ≤ 3 * k) : twoTo n ≤ tenTo k :=
  calc 2 ^ n ≤ 2 ^ (3 * k) := Nat.pow_le_pow_right Nat.two_pos few
    _ = (2 ^ 3) ^ k := Nat.pow_mul 2 3 k
    _ ≤ tenTo k := Nat.pow_le_pow_left (by decide) k

/-- The first digit of a double is not placed too high; four hundred places are enough for the least
one. -/
theorem leadingPlace_le (h : Canonical b.mantissa b.exponent) :
    (10 : ℚ) ^ (leadingPlace b - 1) ≤ b.mantissa * 2 ^ b.exponent := by
  have pos := fraction_pos b
  rw [← fraction_value, leadingPlace]
  dsimp only
  split
  · next whole =>
    have first := leadingPlace_fraction (p := b.fraction.1) pos 0 (by simpa [tenTo] using whole)
    simpa [tenTo] using first
  · refine leadingPlace_fraction pos 400 ?_
    have least := h.least
    have places : (-b.exponent).toNat ≤ 3 * 400 := by omega
    calc b.fraction.2 ≤ tenTo 400 := twoTo_le_tenTo places
      _ ≤ b.fraction.1 * tenTo 400 :=
        Nat.le_mul_of_pos_left _ (Nat.mul_pos h.pos (Nat.two_pow_pos _))

/-! ## The search -/

/-- With seventeen digits the search comes to an end. -/
theorem exists_enoughDigits (h : Canonical b.mantissa b.exponent) :
    ∃ c, (Rounding.around b.mantissa b.exponent).onGrid
      (leadingPlace b - (enoughDigits - 1 + 1 : Nat)) = some c := by
  have fine : (10 : ℚ) ^ (leadingPlace b - (enoughDigits - 1 + 1 : Nat)) * 2 ^ 53 <
      b.mantissa * 2 ^ b.exponent :=
    calc (10 : ℚ) ^ (leadingPlace b - (enoughDigits - 1 + 1 : Nat)) * 2 ^ 53
        < 10 ^ (leadingPlace b - (enoughDigits - 1 + 1 : Nat)) * 10 ^ 16 :=
          mul_lt_mul_of_pos_left (by norm_num) (by positivity)
      _ = 10 ^ (leadingPlace b - 1) := by
        rw [← zpow_natCast, ← zpow_add₀ (by norm_num)]
        congr 1
        show leadingPlace b - 17 + 16 = leadingPlace b - 1
        omega
      _ ≤ b.mantissa * 2 ^ b.exponent := leadingPlace_le h
  exact exists_onGrid ((near_on_grid fine).imp (holds_of_near h) (holds_of_near h))

/-- The shortest decimal of a double lies in the interval around it. -/
theorem shortest_holds (h : Canonical b.mantissa b.exponent) :
    (Rounding.around b.mantissa b.exponent).Holds
      ((shortest b).digits * 10 ^ (shortest b).exponent) := by
  obtain ⟨c, enough⟩ := exists_enoughDigits h
  rw [shortest, if_neg (by simpa using Nat.ne_of_gt h.pos)]
  dsimp only
  cases search : (List.range enoughDigits).findSome? fun n =>
      ((Rounding.around b.mantissa b.exponent).onGrid (leadingPlace b - (n + 1 : Nat))).map
        fun c => (⟨c, leadingPlace b - (n + 1 : Nat)⟩ : Scientific) with
  | none =>
    -- The last count of digits that is tried is the one that is always enough.
    have missed := List.findSome?_eq_none_iff.mp search (enoughDigits - 1) (by decide)
    rw [enough] at missed
    cases missed
  | some s =>
    obtain ⟨n, -, hit⟩ := List.exists_of_findSome?_eq_some search
    obtain ⟨d, found, rfl⟩ := Option.map_eq_some_iff.mp hit
    exact onGrid_holds found

theorem shortest_digits_pos (h : Canonical b.mantissa b.exponent)
    (most : b.exponent ≤ greatestExponent) : 0 < (shortest b).digits :=
  digits_pos h most (shortest_holds h)

section

variable {x : Float} (exact : binary? x = some b) (positive : b.negative = false)

include exact positive

theorem eq_zero_of_binary? (zero : b.mantissa = 0) : x = 0 := by
  rw [← ofModel_pack_unpack x]
  unfold binary? at exact
  split at exact
  · next pos _ =>
    cases exact
    cases zero
    exact absurd pos (by decide)
  · cases exact
    cases positive
  · next unpacked => rw [unpacked]; rfl
  · cases exact
    cases positive
  · cases exact
  · cases exact

variable (nonzero : b.mantissa ≠ 0)

include nonzero

theorem unpack_of_binary? :
    ∃ pos, x.toModel.unpack = .finite .positive b.mantissa b.exponent pos := by
  unfold binary? at exact
  split at exact
  · next unpacked =>
    cases exact
    exact ⟨_, unpacked⟩
  · cases exact
    cases positive
  · cases exact
    exact (nonzero rfl).elim
  · cases exact
    cases positive
  · cases exact
  · cases exact

/-- A double is read from each form of its shortest decimal. -/
theorem nearestFloat_of_shortest {digits : Nat} {exponent : Int}
    (value : (digits * 10 ^ exponent : ℚ) = (shortest b).digits * 10 ^ (shortest b).exponent) :
    nearestFloat digits exponent = x := by
  obtain ⟨pos, unpacked⟩ := unpack_of_binary? exact positive nonzero
  refine nearestFloat_in_interval unpacked ?_
  rw [value]
  exact shortest_holds (canonical_of_unpack unpacked)

end

/-! ## The digits -/

/-- Nothing but zeros is dropped. -/
theorem append_dropTrailingZeros (ds : List Char) :
    ∃ k, ds = dropTrailingZeros ds ++ List.replicate k '0' := by
  refine ⟨(ds.reverse.takeWhile (· == '0')).length, ?_⟩
  have zeros : ds.reverse.takeWhile (· == '0') =
      List.replicate (ds.reverse.takeWhile (· == '0')).length '0' := by
    refine List.eq_replicate_iff.mpr ⟨rfl, fun c mem => ?_⟩
    exact eq_of_beq (List.all_eq_true.mp List.all_takeWhile c mem)
  rw [← List.reverse_replicate, ← zeros, dropTrailingZeros, ← List.reverse_append,
    List.takeWhile_append_dropWhile, List.reverse_reverse]

/-- The digits of a positive number without the zeros at the end, and how many these are. -/
theorem dropTrailingZeros_digitChars {n : Nat} (pos : 0 < n) :
    ∃ d ds k, dropTrailingZeros (digitChars n) = d :: ds ∧ d ≠ '0' ∧
      (∀ c ∈ d :: ds, c.isDigit = true) ∧ n = digitsValue (d :: ds) * 10 ^ k ∧
      (digitChars n).length = (d :: ds).length + k := by
  obtain ⟨k, all⟩ := append_dropTrailingZeros (digitChars n)
  obtain ⟨d, es, first, notZero⟩ := toDigits_eq_cons pos
  have value : n = digitsValue (dropTrailingZeros (digitChars n)) * 10 ^ k := by
    rw [← digitsValue_append_zeros, ← all, digitChars, digitsValue_toDigits]
  have length : (digitChars n).length = (dropTrailingZeros (digitChars n)).length + k := by
    conv_lhs => rw [all, List.length_append, List.length_replicate]
  have digits : ∀ c ∈ dropTrailingZeros (digitChars n), c.isDigit = true := by
    intro c mem
    refine isDigit_of_mem_toDigits (n := n) ?_
    show c ∈ digitChars n
    rw [all]
    exact List.mem_append_left _ mem
  have head : digitChars n = d :: es := first
  cases kept : dropTrailingZeros (digitChars n) with
  | nil =>
    rw [kept, digitsValue, List.map_nil] at value
    exact absurd value (by simp [Text.ofDecimalDigits, Nat.ne_of_gt pos])
  | cons c ds =>
    rw [kept] at value length digits
    rw [kept, head, List.cons_append] at all
    cases (List.cons.inj all).1
    exact ⟨d, ds, k, rfl, notZero, digits, value, length⟩

end LineCalc.Decimal
