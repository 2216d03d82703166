import LineCalc.Decimal.Fixed
import LineCalc.Proofs.Decimal.Compared
import LineCalc.Proofs.Decimal.Spelling

/-!
# Fixed decimal places

A double with a given number of decimals is the spelling of the integer that is nearest to its
magnitude in units of the last place, a tie going to the even one. The point stands before the last
digits, with zeros in front if there are too few. Zeros at the end of the decimals may be left out;
the number stays the same.

Results:
1. `isNearest_inPlaces`: the integer that is set out.
2. `chars_fixedSpelling`, `value_fixedSpelling`: how it is set out, and as which number.
3. `Spelling.value_trimmed`: the number stays without the zeros at the end.
4. `Spelling.value_eq_zero_iff`: only zero is written by zeros.
-/

namespace LineCalc.Decimal

open Float.Model.UnpackedFloat

variable {b : Binary} {places k : Nat} {ds : List Char} {d : Char} {s : Spelling}

/-! ## The integer -/

theorem roundDiv_toEven {p q : Nat} (pos : 0 < q) :
    roundDiv .toEven p q = (ofFraction p q).roundedMantissa := by
  rw [ofFraction, roundedMantissa_ofMantissaAndAccuracy, accuracyOfFraction, roundDiv]
  rcases lt_trichotomy (2 * (p % q)) q with below | half | above
  · have lower : compare (2 * (p % q)) q = .lt := Nat.compare_eq_lt.mpr below
    rw [if_pos below, lower]
    split <;> rfl
  · have tie : compare (2 * (p % q)) q = .eq := Nat.compare_eq_eq.mpr half
    have notBelow : ¬2 * (p % q) < q := by omega
    have notAbove : ¬2 * (p % q) > q := by omega
    have some : ¬p % q = 0 := by omega
    rw [if_neg notBelow, if_neg notAbove, if_neg some, tie]
    show _ = p / q + p / q % 2
    rcases Nat.mod_two_eq_zero_or_one (p / q) with even | odd
    · simp [even]
    · simp [odd]
  · have higher : compare (2 * (p % q)) q = .gt := Nat.compare_eq_gt.mpr above
    rw [if_neg (by omega), if_pos above, if_neg (by omega), higher]
    rfl

/-- In units of the last place the magnitude is brought to the nearest integer. -/
theorem isNearest_inPlaces (b : Binary) (places : Nat) :
    IsNearest (|b.value| * 10 ^ places) (b.inPlaces places) := by
  have product : |b.value| * 10 ^ places = (b.fraction.1 * tenTo places : Nat) / b.fraction.2 := by
    rw [abs_value, tenTo, Nat.pow_eq]
    push_cast
    ring
  rw [product, Binary.inPlaces, roundDiv_toEven (fraction_pos b)]
  exact isNearest_rounded (fraction_pos b)

theorem isNearest_natCast (n : Nat) : IsNearest n n :=
  ⟨by linarith, by linarith, by rintro (tie | tie) <;> linarith⟩

/-- A half is brought to zero. -/
theorem IsNearest.eq_zero_iff {z : ℚ} {n : Nat} (h : IsNearest z n) : n = 0 ↔ z ≤ 1 / 2 := by
  constructor
  · rintro rfl
    simpa using h.high
  · intro small
    have few : (n : ℚ) ≤ 1 := by linarith [h.low]
    have few : n ≤ 1 := by exact_mod_cast few
    by_contra some
    obtain rfl : n = 1 := by omega
    have low := h.low
    push_cast at low
    have odd := h.even (.inl (by push_cast; linarith))
    omega

/-! ## The digits -/

/-- The digits of an integer, with zeros in front where there are too few for a digit before the
point. -/
def paddedDigits (k places : Nat) : List Char :=
  List.replicate (places + 1 - (digitChars k).length) '0' ++ digitChars k

theorem isDigit_of_mem_padded : ∀ c ∈ paddedDigits k places, c.isDigit = true :=
  List.forall_mem_append.mpr ⟨isDigit_of_mem_zeros, fun _ => isDigit_of_mem_toDigits⟩

theorem digitsValue_padded (k places : Nat) : digitsValue (paddedDigits k places) = k :=
  (digitsValue_zeros_append _ _).trans (digitsValue_toDigits k)

theorem length_padded (k places : Nat) : (paddedDigits k places).length =
    max (places + 1) (digitChars k).length := by
  rw [paddedDigits, List.length_append, List.length_replicate]
  omega

/-- No zero stands in front of other digits before the point. -/
theorem padded_first (k places : Nat) :
    let whole := (paddedDigits k places).take ((paddedDigits k places).length - places)
    whole = ['0'] ∨ ∃ d ds, whole = d :: ds ∧ d ≠ '0' := by
  dsimp only
  rw [length_padded]
  rcases Nat.lt_or_ge places (digitChars k).length with long | short
  · have all : paddedDigits k places = digitChars k := by
      rw [paddedDigits, Nat.sub_eq_zero_of_le long]
      rfl
    obtain ⟨i, some⟩ : ∃ i, max (places + 1) (digitChars k).length - places = i + 1 :=
      ⟨(digitChars k).length - places - 1, by omega⟩
    rw [all, some]
    rcases Nat.eq_zero_or_pos k with rfl | pos
    · exact .inl (congrArg ('0' :: ·) List.take_nil)
    · obtain ⟨d, ds, digits, notZero⟩ := toDigits_eq_cons pos
      exact .inr ⟨d, ds.take i, by rw [digitChars, digits, List.take_succ_cons], notZero⟩
  · obtain ⟨i, some⟩ : ∃ i, places + 1 - (digitChars k).length = i + 1 :=
      ⟨places - (digitChars k).length, by omega⟩
    have one : max (places + 1) (digitChars k).length - places = 1 := by omega
    rw [one, paddedDigits, some]
    exact .inl rfl

/-- An integer with the point before its last digits. -/
def fixedSpelling (k places : Nat) : Spelling where
  whole := (paddedDigits k places).take ((paddedDigits k places).length - places)
  fraction := (paddedDigits k places).drop ((paddedDigits k places).length - places)
  power := none
  whole_digits _ mem := isDigit_of_mem_padded _ (List.mem_of_mem_take mem)
  whole_first := padded_first k places
  fraction_digits _ mem := isDigit_of_mem_padded _ (List.mem_of_mem_drop mem)

theorem length_fraction (k places : Nat) : (fixedSpelling k places).fraction.length = places := by
  rw [fixedSpelling, List.length_drop, length_padded]
  omega

theorem chars_fixedSpelling (k places : Nat) :
    (fixedSpelling k places).chars = pointChars k places := by
  have none : (fixedSpelling k places).fraction.isEmpty = (places == 0) := by
    rw [Bool.eq_iff_iff, List.isEmpty_iff, ← List.length_eq_zero_iff, length_fraction, beq_iff_eq]
  rw [Spelling.chars, Spelling.point, none]
  exact congrArg _ (List.append_nil _)

theorem value_fixedSpelling (k places : Nat) :
    (fixedSpelling k places).value = k / 10 ^ places := by
  have digits : (fixedSpelling k places).digits = k := by
    rw [Spelling.digits, fixedSpelling, List.take_append_drop, digitsValue_padded]
  have exponent : (fixedSpelling k places).exponent = -(places : Int) := by
    rw [Spelling.exponent, length_fraction]
    exact Int.zero_sub _
  rw [Spelling.value, digits, exponent, zpow_neg, zpow_natCast, div_eq_mul_inv]

/-! ## Zeros at the end -/

/-- Only zero is written by zeros. -/
theorem digitsValue_eq_zero_iff (digits : ∀ c ∈ ds, c.isDigit = true) :
    digitsValue ds = 0 ↔ ∀ c ∈ ds, c = '0' := by
  induction ds using List.reverseRecOn with
  | nil => exact iff_of_true rfl (List.forall_mem_nil _)
  | append_singleton ds d ih =>
    obtain ⟨digits, last⟩ := List.forall_mem_append.mp digits
    have last : d.toNat - '0'.toNat = 0 ↔ d = '0' := by
      have low : '0'.toNat ≤ d.toNat := by
        have digit := List.forall_mem_singleton.mp last
        simp only [Char.isDigit, Bool.and_eq_true, decide_eq_true_eq] at digit
        exact digit.1
      rw [← Char.toNat_inj]
      omega
    rw [digitsValue_append_singleton, Nat.add_eq_zero_iff, last, List.forall_mem_append,
      ← ih digits, List.forall_mem_singleton]
    simp

theorem getLast?_dropTrailingZeros (ds : List Char) :
    (dropTrailingZeros ds).getLast? ≠ some '0' := by
  rw [dropTrailingZeros, List.getLast?_reverse]
  intro zero
  have first := List.head?_dropWhile_not (· == '0') ds.reverse
  rw [zero] at first
  cases first

namespace Spelling

/-- The number without the zeros at the end of its decimals. -/
def trimmed (s : Spelling) : Spelling where
  whole := s.whole
  fraction := dropTrailingZeros s.fraction
  power := s.power
  whole_digits := s.whole_digits
  whole_first := s.whole_first
  fraction_digits c mem := by
    obtain ⟨zeros, all⟩ := append_dropTrailingZeros s.fraction
    exact s.fraction_digits c (all ▸ List.mem_append_left _ mem)

theorem value_trimmed (s : Spelling) : s.trimmed.value = s.value := by
  obtain ⟨zeros, all⟩ := append_dropTrailingZeros s.fraction
  have digits : s.digits = s.trimmed.digits * 10 ^ zeros := by
    rw [Spelling.digits, all, ← List.append_assoc, digitsValue_append_zeros]
    rfl
  have exponent : s.trimmed.exponent = zeros + s.exponent := by
    have length := congrArg List.length all
    rw [List.length_append, List.length_replicate] at length
    show s.power.getD 0 - ((dropTrailingZeros s.fraction).length : Int) =
      zeros + (s.power.getD 0 - s.fraction.length)
    omega
  rw [Spelling.value, Spelling.value, digits, exponent, zpow_add₀ (by norm_num), zpow_natCast]
  push_cast
  ring

/-! ## Digits that are all zero -/

theorem exists_chars_cons (s : Spelling) : ∃ d ds, s.chars = d :: ds ∧ d.isDigit = true := by
  obtain ⟨d, ds, whole⟩ := List.exists_cons_of_ne_nil s.whole_ne_nil
  exact ⟨d, ds ++ (s.point ++ s.scale), by rw [chars, whole]; rfl,
    s.whole_digits d (whole ▸ List.mem_cons_self)⟩

theorem value_eq_zero_iff (s : Spelling) : s.value = 0 ↔ ∀ c ∈ s.whole ++ s.fraction, c = '0' := by
  have power : (10 : ℚ) ^ s.exponent ≠ 0 := zpow_ne_zero _ (by norm_num)
  rw [value, mul_eq_zero, or_iff_left power, Nat.cast_eq_zero, digits, digitsValue_eq_zero_iff]
  exact List.forall_mem_append.mpr ⟨s.whole_digits, s.fraction_digits⟩

/-- Zero is written by a single digit if no zeros stand at the end. -/
theorem chars_of_zero (noPower : s.power = none) (trimmed : s.fraction.getLast? ≠ some '0')
    (zero : s.value = 0) : s.chars = ['0'] := by
  obtain ⟨whole, fraction⟩ := List.forall_mem_append.mp (s.value_eq_zero_iff.mp zero)
  have one : s.whole = ['0'] := by
    refine s.whole_first.resolve_right ?_
    rintro ⟨d, ds, eq, notZero⟩
    exact notZero (whole d (eq ▸ List.mem_cons_self))
  have none : s.fraction = [] := by
    rcases List.eq_nil_or_concat s.fraction with none | ⟨ds, d, eq⟩
    · exact none
    · have last : d = '0' := fraction d (by simp [eq])
      simp [eq, last] at trimmed
  simp [chars, point, scale, one, none, noPower]

theorem mem_chars {c : Char} (mem : c ∈ s.whole ++ s.fraction) : c ∈ s.chars := by
  rw [chars, point]
  rcases List.mem_append.mp mem with whole | fraction
  · exact List.mem_append_left _ whole
  · rw [if_neg (by simpa using List.ne_nil_of_mem fraction)]
    exact List.mem_append_right _ (List.mem_append_left _ (List.mem_cons_of_mem _ fraction))

theorem value_of_chars (zero : s.chars = ['0']) : s.value = 0 := by
  rw [value_eq_zero_iff]
  intro c mem
  rw [← List.mem_singleton, ← zero]
  exact mem_chars mem

/-- With a sign only in front of a number other than zero it is no zero with a sign. -/
theorem signed_chars_ne (s : Spelling) {sign : List Char} (hsign : sign = [] ∨ sign = ['-'])
    (some : sign = ['-'] → s.value ≠ 0) :
    sign ++ s.chars ≠ ['-', '0'] ∧ sign ++ s.chars ≠ [] := by
  obtain ⟨d, ds, chars, digit⟩ := s.exists_chars_cons
  refine ⟨fun zero => ?_, by simp [chars]⟩
  rcases hsign with rfl | rfl
  · rw [List.nil_append, chars] at zero
    cases (List.cons.inj zero).1
    cases digit
  · exact some rfl (value_of_chars (List.cons.inj zero).2)

end Spelling

end LineCalc.Decimal
