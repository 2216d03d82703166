import LineCalc.Proofs.Decimal.Fixed
import LineCalc.Proofs.Decimal.HalfAway
import LineCalc.Value.Format

/-!
# Plain amounts as text

A finite amount is rounded to a number of decimals that its magnitude tells, a tie going to the even
neighbour, and shown as a plain decimal without zeros at the end of its decimals. An integer that is
not too great is shown as it is. Where only zeros are left there is no sign.

Results:
1. `decimalsFor_eq`: the decimals, by the exact value of the amount.
2. `trimDecimals_chars`: zeros are taken off behind a point and nowhere else.
3. `formatNumber_shown`: the text of an amount.
4. `formatNumber_law`: with what it is for integers.
-/

namespace LineCalc

open Decimal

variable {n : Float} {b : Binary} {q : ℚ} {z : ℤ} {places : Nat}

/-! ## Decimals -/

/-- The decimals that a number is shown with at most. -/
def decimalsOf (q : ℚ) (precision : Nat) : Nat :=
  if 1 ≤ |q| then precision
  else if 1 / 100 ≤ |q| then max precision 4
  else max precision 6

theorem one_le_abs_iff (finite : n.isFinite = true) : 1 ≤ n.abs ↔ 1 ≤ |exactValue n| := by
  have parts : binary? 1 = some ⟨false, 2 ^ 52, -52⟩ := by decide +kernel
  have value : exactValue 1 = 1 := by
    rw [exactValue_of_binary? parts]
    norm_num [Binary.value]
  rw [le_iff_exactValue rfl (isFinite_abs finite), exactValue_abs finite, value]

theorem hundredth_le_abs_iff (finite : n.isFinite = true) :
    0.01 ≤ n.abs ↔ 1 / 100 ≤ |exactValue n| := by
  have parts : binary? 0.01 = some ⟨false, 5764607523034235, -59⟩ := by decide +kernel
  have above : 1 / 100 ≤ exactValue 0.01 := by
    rw [exactValue_of_binary? parts]
    norm_num [Binary.value]
  have rounds : Rounds (1 / 100) 0.01 := by
    have rounds := rounds_nearestFloat 1 (-2)
    norm_num at rounds
    exact rounds
  have nearest : Nearest (1 / 100) 0.01 := rounds.nearest (rounds.isFinite_iff.mp rfl)
  rw [nearest.le_iff above (isFinite_abs finite), exactValue_abs finite]

theorem abs_lt_wholeLimit_iff (finite : n.isFinite = true) :
    n.abs < wholeLimit ↔ |exactValue n| < 10 ^ 15 := by
  have parts : binary? wholeLimit = some ⟨false, 8000000000000000, -3⟩ := by decide +kernel
  have value : exactValue wholeLimit = 10 ^ 15 := by
    rw [exactValue_of_binary? parts]
    norm_num [Binary.value]
  rw [lt_iff_exactValue (isFinite_abs finite) rfl, exactValue_abs finite, value]

theorem decimalsFor_eq (finite : n.isFinite = true) (precision : Nat) :
    decimalsFor n precision = decimalsOf (exactValue n) precision := by
  simp only [decimalsFor, decimalsOf, ge_iff_le, one_le_abs_iff finite, hundredth_le_abs_iff finite]

/-! ## Zeros at the end -/

variable {front fraction : List Char} {s : Spelling}

/-- Behind a point the zeros at the end are taken off, and the point as well if nothing is left. -/
theorem trimDecimals_point (last : ∀ c ∈ front.getLast?, c ≠ '.')
    (digits : ∀ c ∈ fraction, c.isDigit = true) :
    trimDecimals (front ++ '.' :: fraction) = front ++
      (if (dropTrailingZeros fraction).isEmpty then [] else '.' :: dropTrailingZeros fraction) := by
  have point : (front ++ '.' :: fraction).contains '.' = true := by simp
  have reversed : (front ++ '.' :: fraction).reverse =
      fraction.reverse ++ '.' :: front.reverse := by simp
  rw [trimDecimals, if_pos point, reversed, List.dropWhile_append, dropTrailingZeros]
  cases kept : fraction.reverse.dropWhile (· == '0') with
  | nil =>
    have same : front.reverse.dropWhile (· == '.') = front.reverse := by
      cases reverse : front.reverse with
      | nil => rfl
      | cons c cs =>
        have noPoint : c ≠ '.' := last c (by rw [← List.head?_reverse, reverse]; rfl)
        rw [List.dropWhile_cons_of_neg (by simpa using noPoint)]
    show ((('.' :: front.reverse).dropWhile (· == '.'))).reverse = front ++ []
    rw [List.dropWhile_cons_of_pos (by rfl), same, List.reverse_reverse, List.append_nil]
  | cons d ds =>
    have mem : d ∈ fraction.reverse.dropWhile (· == '0') := kept ▸ List.mem_cons_self
    have digit := digits d (List.mem_reverse.mp ((List.dropWhile_sublist _).mem mem))
    have noPoint : (d == '.') = false := by
      rw [beq_eq_false_iff_ne]
      rintro rfl
      cases digit
    show ((d :: (ds ++ '.' :: front.reverse)).dropWhile (· == '.')).reverse = _
    rw [List.dropWhile_cons_of_neg (by simp [noPoint])]
    simp

/-- Zeros are taken off the decimals of a number; where there are none it stays as it is. -/
theorem trimDecimals_chars {sign : List Char} (hsign : sign = [] ∨ sign = ['-'])
    (noPower : s.power = none) : trimDecimals (sign ++ s.chars) = sign ++ s.trimmed.chars := by
  have noPoint : ∀ c ∈ sign ++ s.whole, c ≠ '.' := by
    rw [List.forall_mem_append]
    refine ⟨by rcases hsign with rfl | rfl <;> simp, fun c mem => ?_⟩
    rintro rfl
    cases s.whole_digits '.' mem
  have noScale : s.scale = [] ∧ s.trimmed.scale = [] := by
    simp [Spelling.scale, Spelling.trimmed, noPower]
  rw [Spelling.chars, Spelling.chars, noScale.1, noScale.2, List.append_nil, List.append_nil,
    ← List.append_assoc, ← List.append_assoc, Spelling.point]
  split
  · next none =>
    rw [List.isEmpty_iff] at none
    have whole : s.trimmed.point = [] := by simp [Spelling.point, Spelling.trimmed, none,
      dropTrailingZeros]
    have without : (sign ++ s.whole).contains '.' = false := by
      rw [← Bool.not_eq_true, List.contains_iff_mem]
      exact fun mem => noPoint '.' mem rfl
    rw [List.append_nil, trimDecimals, without, if_neg Bool.false_ne_true, whole, List.append_nil]
    rfl
  · exact trimDecimals_point (fun c last => noPoint c (List.mem_of_getLast? last)) s.fraction_digits

/-! ## Plain amounts -/

/-- What a number is shown as: the nearest integer `k` in units of the last place, spelled by `s`
without a power of ten and without zeros at the end of the decimals. There is a sign if the number
is negative, unless `k` is zero. -/
structure ShownAs (q : ℚ) (places : Nat) (text : String) (k : Nat) (s : Spelling) : Prop where
  nearest : IsNearest (|q| * 10 ^ places) k
  value : s.value = k / 10 ^ places
  noPower : s.power = none
  trimmed : s.fraction.getLast? ≠ some '0'
  text : text = String.ofList ((if q < 0 ∧ k ≠ 0 then ['-'] else []) ++ s.chars)

/-- It is neither a zero with a sign nor nothing. -/
theorem ShownAs.chars_ne {text : String} {k : Nat} (h : ShownAs q places text k s) :
    let cs := (if q < 0 ∧ k ≠ 0 then ['-'] else []) ++ s.chars
    cs ≠ ['-', '0'] ∧ cs ≠ [] := by
  refine s.signed_chars_ne (by split <;> simp) fun minus => ?_
  rw [h.value]
  split at minus
  · next negative => exact div_ne_zero (Nat.cast_ne_zero.mpr negative.2) (by positivity)
  · cases minus

theorem shown_integer (z : ℤ) (places : Nat) :
    ShownAs z places (toString z) (z.natAbs * 10 ^ places) (.ofNat z.natAbs) := by
  have magnitude : |(z : ℚ)| = z.natAbs := by rw [Nat.cast_natAbs, Int.cast_abs]
  have power : (10 : ℚ) ^ places ≠ 0 := by positivity
  have sign : ((z : ℚ) < 0 ∧ z.natAbs * 10 ^ places ≠ 0) ↔ z < 0 := by
    rw [Int.cast_lt_zero, and_iff_left_iff_imp]
    intro negative
    have some : 0 < z.natAbs := Int.natAbs_pos.mpr negative.ne
    exact (Nat.mul_pos some (Nat.pow_pos (by decide))).ne'
  refine ⟨?_, ?_, rfl, nofun, ?_⟩
  · rw [magnitude]
    exact_mod_cast isNearest_natCast (z.natAbs * 10 ^ places)
  · rw [Spelling.value, Spelling.digits_ofNat]
    have exponent : (Spelling.ofNat z.natAbs).exponent = 0 := rfl
    rw [exponent, zpow_zero, mul_one]
    push_cast
    rw [mul_div_cancel_right₀ _ power]
  · rw [toString_eq]
    simp only [sign]

theorem negative_iff (nonzero : b.value ≠ 0) : b.negative = true ↔ b.value < 0 := by
  have nonneg : (0 : ℚ) ≤ b.mantissa * 2 ^ b.exponent := by positivity
  rw [Binary.value] at nonzero ⊢
  split
  · next negative =>
    rw [if_pos negative] at nonzero
    exact iff_of_true negative (lt_of_le_of_ne (neg_nonpos.mpr nonneg) nonzero)
  · next positive => exact iff_of_false positive nonneg.not_gt

/-- What is nearest to a number other than zero at a place is zero only if the number is small. -/
theorem ne_zero_of_nearest {k : Nat} (nearest : IsNearest (|q| * 10 ^ places) k) (some : k ≠ 0) :
    q ≠ 0 := by
  rintro rfl
  have low := nearest.low
  rw [abs_zero, zero_mul] at low
  have one : (1 : ℚ) ≤ k := by exact_mod_cast Nat.one_le_iff_ne_zero.mpr some
  linarith

/-- What is set out with a number of decimals, without zeros at the end, and without the sign of a
zero. -/
theorem shown_fixed (exact : binary? n = some b) (places : Nat) :
    let text := String.ofList (trimDecimals (fixedText n places).toList)
    ∃ k s, ShownAs b.value places (if text == "-0" || text == "" then "0" else text) k s := by
  intro text
  obtain ⟨k, count⟩ : ∃ k, b.inPlaces places = k := ⟨_, rfl⟩
  obtain ⟨sign, hsign, signed⟩ : ∃ sign, (sign = [] ∨ sign = ['-']) ∧
      (if b.negative then ['-'] else []) = sign := by
    cases b.negative with
    | false => exact ⟨[], .inl rfl, rfl⟩
    | true => exact ⟨['-'], .inr rfl, rfl⟩
  have shown : text = String.ofList (sign ++ (fixedSpelling k places).trimmed.chars) := by
    rw [← trimDecimals_chars hsign rfl, chars_fixedSpelling, ← count, ← signed]
    simp only [text, fixedText, exact, String.toList_ofList]
  have nearest : IsNearest (|b.value| * 10 ^ places) k := count ▸ isNearest_inPlaces b places
  have value := (Spelling.value_trimmed _).trans (value_fixedSpelling k places)
  have trimmed : (fixedSpelling k places).trimmed.fraction.getLast? ≠ some '0' :=
    getLast?_dropTrailingZeros _
  have noPower : (fixedSpelling k places).trimmed.power = none := rfl
  refine ⟨k, (fixedSpelling k places).trimmed, nearest, value, noPower, trimmed, ?_⟩
  generalize (fixedSpelling k places).trimmed = s at *
  by_cases zero : k = 0
  · -- Of a zero with a sign only the zero is left.
    rw [zero, Nat.cast_zero, zero_div] at value
    have unsigned : ¬(b.value < 0 ∧ k ≠ 0) := fun some => some.2 zero
    rw [shown, Spelling.chars_of_zero noPower trimmed value, if_neg unsigned]
    rcases hsign with rfl | rfl <;> rfl
  · have number : s.value ≠ 0 := by
      rw [value]
      exact div_ne_zero (Nat.cast_ne_zero.mpr zero) (by positivity)
    have others := s.signed_chars_ne hsign fun _ => number
    have kept : (text == "-0" || text == "") = false := by
      rw [shown, Bool.or_eq_false_iff, beq_eq_false_iff_ne, beq_eq_false_iff_ne]
      exact ⟨fun minus => others.1 (String.ofList_injective minus),
        fun empty => others.2 (String.ofList_injective empty)⟩
    have negative : (b.value < 0 ∧ k ≠ 0) ↔ b.negative = true := by
      rw [and_iff_left zero, negative_iff (ne_zero_of_nearest nearest zero)]
    rw [kept, if_neg Bool.false_ne_true, shown, ← signed]
    simp only [negative]

/-! ## Integers -/

theorem truncate_of_integer (integer : b.value = z) : b.truncate = z := by
  rw [truncate_eq, integer, towardZero]
  split
  · exact Int.floor_intCast z
  · exact Int.ceil_intCast z

theorem isWhole_iff (b : Binary) : b.isWhole = true ↔ ∃ z : ℤ, b.value = z := by
  have below : (b.fraction.2 : ℚ) ≠ 0 := Nat.cast_ne_zero.mpr (fraction_pos b).ne'
  rw [Binary.isWhole, beq_iff_eq, ← Nat.dvd_iff_mod_eq_zero]
  constructor
  · rintro ⟨c, multiple⟩
    have magnitude : |b.value| = c := by
      rw [abs_value, multiple]
      push_cast
      rw [mul_div_cancel_left₀ _ below]
    rcases abs_choice b.value with same | opposite
    · exact ⟨c, by rw [← same, magnitude, Int.cast_natCast]⟩
    · refine ⟨-c, ?_⟩
      rw [← neg_eq_iff_eq_neg.mpr opposite, magnitude]
      push_cast
      rfl
  · rintro ⟨z, integer⟩
    have magnitude : (b.fraction.1 / b.fraction.2 : ℚ) = z.natAbs := by
      rw [← abs_value, integer, Nat.cast_natAbs, Int.cast_abs]
    rw [div_eq_iff below] at magnitude
    exact ⟨z.natAbs, by rw [Nat.mul_comm]; exact_mod_cast magnitude⟩

/-! ## All amounts -/

theorem formatNumber_eq (exact : binary? n = some b) (precision : Nat) :
    formatNumber n precision =
      if b.isWhole = true ∧ |b.value| < 10 ^ 15 then toString b.truncate
      else
        let places := decimalsOf b.value precision
        let text := String.ofList (trimDecimals (fixedText n places).toList)
        if text == "-0" || text == "" then "0" else text := by
  have finite : n.isFinite = true := by rw [← binary?_isSome, exact]; rfl
  have whole : (isWhole n && decide (n.abs < wholeLimit)) =
      decide (b.isWhole = true ∧ |b.value| < 10 ^ 15) := by
    simp [isWhole, exact, abs_lt_wholeLimit_iff finite, exactValue_of_binary? exact]
  have truncated : (truncate? n).getD 0 = b.truncate := by
    rw [truncate?, exact]
    rfl
  rw [formatNumber, not_isNaN_of_binary? exact, if_neg Bool.false_ne_true,
    not_isInf_of_binary? exact, if_neg Bool.false_ne_true, whole, truncated, decimalsFor_eq finite,
    exactValue_of_binary? exact]
  simp only [decide_eq_true_eq]

/-- The text of a finite amount. -/
theorem formatNumber_shown (finite : n.isFinite = true) (precision : Nat) :
    ∃ k s, ShownAs (exactValue n) (decimalsOf (exactValue n) precision)
      (formatNumber n precision) k s := by
  obtain ⟨b, exact⟩ := Option.isSome_iff_exists.mp ((binary?_isSome n).trans finite)
  rw [exactValue_of_binary? exact, formatNumber_eq exact]
  split
  · next whole =>
    obtain ⟨z, integer⟩ := (isWhole_iff b).mp whole.1
    rw [truncate_of_integer integer, integer]
    exact ⟨_, _, shown_integer z _⟩
  · exact shown_fixed exact _

/-- A finite amount is shown as the decimal that it is rounded to, with the number of decimals that
its magnitude tells, and an integer below `10^15` as it is. It is never shown as a zero with a sign
nor as nothing. -/
theorem formatNumber_law (finite : n.isFinite = true) (precision : Nat) :
    let text := formatNumber n precision
    (∃ k s, ShownAs (exactValue n) (decimalsOf (exactValue n) precision) text k s) ∧
    (∀ z : ℤ, exactValue n = z → |z| < 10 ^ 15 → text = toString z) ∧
    text ≠ "-0" ∧ text ≠ "" := by
  intro text
  obtain ⟨k, s, shown⟩ := formatNumber_shown finite precision
  refine ⟨⟨k, s, shown⟩, fun z integer small => ?_, ?_, ?_⟩
  · obtain ⟨b, exact⟩ := Option.isSome_iff_exists.mp ((binary?_isSome n).trans finite)
    rw [exactValue_of_binary? exact] at integer
    have small : |b.value| < 10 ^ 15 := by
      rw [integer]
      exact_mod_cast small
    rw [show text = formatNumber n precision from rfl, formatNumber_eq exact,
      if_pos ⟨(isWhole_iff b).mpr ⟨z, integer⟩, small⟩, truncate_of_integer integer]
  · exact fun zero => shown.chars_ne.1 (String.ofList_injective (shown.text.symm.trans zero))
  · exact fun empty => shown.chars_ne.2 (String.ofList_injective (shown.text.symm.trans empty))

/-- A million keeps its zeros, which are not behind a point. -/
theorem formatNumber_law_exMillion :
    (1e6 : Float).isFinite = true ∧ formatNumber 1e6 0 = "1000000" ∧
      ∃ k s, ShownAs (exactValue 1e6) (decimalsOf (exactValue 1e6) 0) (formatNumber 1e6 0) k s := by
  have parts : binary? 1e6 = some ⟨false, 8589934592000000, -33⟩ := by decide +kernel
  have value : exactValue 1e6 = (1000000 : ℤ) := by
    rw [exactValue_of_binary? parts]
    norm_num [Binary.value]
  have law := formatNumber_law (n := 1e6) rfl 0
  exact ⟨rfl, law.2.1 1000000 value (by norm_num), law.1⟩

end LineCalc
