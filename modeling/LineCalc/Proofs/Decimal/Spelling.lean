import LineCalc.Proofs.Decimal.Numeral
import LineCalc.Proofs.Decimal.Shortest

/-!
# Numbers as they are written

A number is written by digits, perhaps with a point and more digits, and perhaps with a power of
ten. The digits of a double are set out in one of four ways, and an integer by its digits alone;
what is read from either is the decimal that the digits and the power make.

Results:
1. `Spelling.floatOf?_chars`: what is read from a number, with its sign.
2. `spells_setOut`: each way to set out digits is such a number, with the value of the digits.
3. `magnitudeChars_spelling`, `nearestFloat_wholePart`: a double is read from what is written.
-/

namespace LineCalc.Decimal

open LineCalc.Text

variable {ds cs rest : List Char} {d c : Char} {p : Int}

/-! ## Powers of ten -/

theorem isDigit_of_mem_zeros {k : Nat} : ∀ c ∈ List.replicate k '0', c.isDigit = true := by
  intro c mem
  rw [List.eq_of_mem_replicate mem]
  rfl

/-- A power of ten is a sign and some digits. -/
theorem exponentChars_eq (e : Int) :
    ∃ row, exponentChars e = 'e' :: (if e < 0 then '-' else '+') :: row ∧ row ≠ [] ∧
      (∀ c ∈ row, c.isDigit = true) ∧ digitsValue row = e.natAbs := by
  have digits : ∀ c ∈ digitChars e.natAbs, c.isDigit = true := fun c => isDigit_of_mem_toDigits
  refine ⟨_, rfl, ?_⟩
  split
  · refine ⟨List.cons_ne_nil _ _, List.forall_mem_cons.mpr ⟨rfl, digits⟩, ?_⟩
    exact (digitsValue_zeros_append 1 _).trans (digitsValue_toDigits _)
  · exact ⟨Nat.toDigits_ne_nil, digits, digitsValue_toDigits _⟩

theorem isPower_exponentChars (e : Int) : IsPower Char.isDigit (exponentChars e) := by
  obtain ⟨row, eq, nonempty, digits, -⟩ := exponentChars_eq e
  refine .inr ⟨'e', [if e < 0 then '-' else '+'], row, eq, .inl rfl, ?_, nonempty, digits⟩
  split
  · exact .inr (.inr rfl)
  · exact .inr (.inl rfl)

theorem splitSign_written (e : Int) (row : List Char) :
    splitSign ((if e < 0 then '-' else '+') :: row) = (decide (e < 0), row) := by
  split
  · next negative => simp [splitSign, negative]
  · next nonneg => simp [splitSign, nonneg]

/-- An integer is its magnitude with its sign. -/
theorem signed_natAbs (e : Int) :
    (if decide (e < 0) = true then -(e.natAbs : Int) else e.natAbs) = e := by
  simp only [decide_eq_true_eq]
  split <;> omega

theorem readExponent?_exponentChars (e : Int) : readExponent? (exponentChars e) = some e := by
  obtain ⟨row, eq, nonempty, digits, value⟩ := exponentChars_eq e
  have ends : EndsDigits [] := by
    intro c rest eq
    cases eq
  have span : spanDigits (row ++ []) = _ := spanDigits_append digits ends
  rw [List.append_nil] at span
  obtain ⟨c, cs, rfl⟩ := List.exists_cons_of_ne_nil nonempty
  rw [eq, readExponent?, if_pos (by decide), splitSign_written]
  dsimp only
  rw [span]
  show some (if decide (e < 0) = true then -(digitsValue (c :: cs) : Int)
    else digitsValue (c :: cs)) = some e
  rw [value, signed_natAbs]

/-- A number in ASCII is read as it stands. -/
theorem plainNumeral_of_isNumber (h : IsNumber Char.isDigit cs) :
    dropUnderscores? false (plainNumeral cs) = some cs := by
  have ascii : cs.map plainChar = cs := by
    refine (List.map_congr_left fun c mem => ?_).trans (List.map_id cs)
    rcases h.mem mem with digit | mark
    · have most : c.toNat ≤ 57 := by
        simp only [Char.isDigit, Bool.and_eq_true, decide_eq_true_eq] at digit
        exact digit.2
      exact plainChar_of_lt (by omega)
    · exact plainChar_of_mem_marks mark
  have trimmed : plainNumeral cs = cs := by
    rw [plainNumeral, ascii]
    refine trimOf_eq_self fun c mem => ?_
    rcases h.mem mem with digit | mark
    · exact isAsciiBlank_of_isDigit digit
    · exact isAsciiBlank_of_mem_marks mark
  rw [trimmed]
  refine dropUnderscores?_eq_self fun mem => ?_
  rcases h.mem mem with digit | mark
  · cases digit
  · revert mark
    decide

/-! ## Spellings -/

/-- The parts of a number as it is written. No zero stands in front of other digits. -/
structure Spelling where
  whole : List Char
  fraction : List Char
  power : Option Int
  whole_digits : ∀ c ∈ whole, c.isDigit = true
  whole_first : whole = ['0'] ∨ ∃ d ds, whole = d :: ds ∧ d ≠ '0'
  fraction_digits : ∀ c ∈ fraction, c.isDigit = true

namespace Spelling

/-- The point with the digits behind it, if there are any. -/
def point (s : Spelling) : List Char := if s.fraction.isEmpty then [] else '.' :: s.fraction

/-- The power of ten, if there is one. -/
def scale (s : Spelling) : List Char := s.power.elim [] exponentChars

/-- The characters of a number. -/
def chars (s : Spelling) : List Char := s.whole ++ (s.point ++ s.scale)

/-- The digits of a number without its point. -/
def digits (s : Spelling) : Nat := digitsValue (s.whole ++ s.fraction)

/-- The power of ten that the digits are to be multiplied with. -/
def exponent (s : Spelling) : Int := s.power.getD 0 - s.fraction.length

/-- The number that is written. -/
def value (s : Spelling) : ℚ := s.digits * 10 ^ s.exponent

variable (s : Spelling)

theorem whole_ne_nil : s.whole ≠ [] := by
  rcases s.whole_first with eq | ⟨d, ds, eq, -⟩ <;> simp [eq]

theorem isPoint : IsPoint Char.isDigit s.point := by
  unfold point
  split
  · exact .inl rfl
  · next nonempty => exact .inr ⟨s.fraction, rfl, by simpa using nonempty, s.fraction_digits⟩

theorem isPower : IsPower Char.isDigit s.scale := by
  unfold scale
  cases s.power with
  | none => exact .inl rfl
  | some e => exact isPower_exponentChars e

theorem readExponent?_scale : readExponent? s.scale = some (s.power.getD 0) := by
  unfold scale
  cases s.power with
  | none => rfl
  | some e => exact readExponent?_exponentChars e

theorem isNumber {sign : List Char} (h : sign = [] ∨ sign = ['-']) :
    IsNumber Char.isDigit (sign ++ s.chars) :=
  .intro h s.whole_digits s.isPoint (List.append_ne_nil_of_left_ne_nil s.whole_ne_nil _) s.isPower

/-- Without its sign, a number is read as the double nearest to it. -/
theorem readMagnitude?_chars :
    readMagnitude? s.chars = some (nearestFloat s.digits s.exponent) := by
  have whole : s.whole.isEmpty = false := by simpa using s.whole_ne_nil
  have read := s.readExponent?_scale
  have noDigit := s.isPower.endsDigits
  have noPoint (after : List Char) : s.scale ≠ '.' :: after := s.isPower.ne_point
  rw [chars, point]
  split
  · next none =>
    have none : s.fraction = [] := by simpa using none
    rw [List.nil_append, readMagnitude?, spanDigits_append s.whole_digits noDigit]
    dsimp only
    split
    · next after eq => exact absurd eq (noPoint after)
    · simp [s.whole_ne_nil, read, digits, exponent, digitsValue, none]
  · next some =>
    have ends : EndsDigits ('.' :: (s.fraction ++ s.scale)) := by
      rintro c rest h
      cases h
      rfl
    rw [List.cons_append, readMagnitude?, spanDigits_append s.whole_digits ends]
    simp only [spanDigits_append s.fraction_digits noDigit]
    simp [s.whole_ne_nil, read, digits, exponent, digitsValue]

/-- A number is read with the sign in front of it. -/
theorem floatOf?_chars : floatOf? s.chars = some (nearestFloat s.digits s.exponent) ∧
    floatOf? ('-' :: s.chars) = some (-nearestFloat s.digits s.exponent) := by
  have unsigned : splitSign s.chars = (false, s.chars) :=
    splitSign_magnitude s.whole_digits s.isPoint
      (List.append_ne_nil_of_left_ne_nil s.whole_ne_nil _)
  constructor
  · have same := plainNumeral_of_isNumber (s.isNumber (.inl rfl))
    rw [List.nil_append] at same
    rw [floatOf?, same]
    simp only [Option.bind_eq_bind, Option.bind_some]
    simp [unsigned, s.readMagnitude?_chars]
  · have same := plainNumeral_of_isNumber (s.isNumber (.inr rfl))
    rw [List.singleton_append] at same
    rw [floatOf?, same]
    simp [splitSign, s.readMagnitude?_chars]

end Spelling

/-! ## Digits set out -/

/-- The number is written with a point or with a power of ten. -/
def Spelling.IsDecimal (s : Spelling) : Prop := s.fraction ≠ [] ∨ s.power ≠ none

/-- Some characters are a number with a point or a power of ten. -/
def Spells (cs : List Char) (y : ℚ) : Prop :=
  ∃ s : Spelling, s.chars = cs ∧ s.value = y ∧ s.IsDecimal

/-- One digit before the point, if any others follow, and a power of ten. -/
theorem spells_scientific (digits : ∀ c ∈ d :: ds, c.isDigit = true) (notZero : d ≠ '0')
    (p : Int) : Spells (d :: ((if ds.isEmpty then [] else '.' :: ds) ++ exponentChars (p - 1)))
      (digitsValue (d :: ds) * 10 ^ (p - (d :: ds).length)) := by
  obtain ⟨first, others⟩ := List.forall_mem_cons.mp digits
  refine ⟨⟨[d], ds, some (p - 1), List.forall_mem_singleton.mpr first, .inr ⟨d, [], rfl, notZero⟩,
    others⟩, rfl, ?_, .inr (Option.some_ne_none _)⟩
  show (digitsValue ([d] ++ ds) : ℚ) * 10 ^ (p - 1 - ds.length) = _
  rw [List.singleton_append, List.length_cons, Nat.cast_succ]
  congr 2
  omega

/-- A zero before the point, and zeros behind it. -/
theorem spells_small (digits : ∀ c ∈ ds, c.isDigit = true) (nonempty : ds ≠ []) (low : p ≤ 0) :
    Spells ('0' :: '.' :: (List.replicate (-p).toNat '0' ++ ds))
      (digitsValue ds * 10 ^ (p - ds.length)) := by
  let row := List.replicate (-p).toNat '0' ++ ds
  have some : row ≠ [] := List.append_ne_nil_of_right_ne_nil _ nonempty
  refine ⟨⟨['0'], row, none, by simp, .inl rfl,
    List.forall_mem_append.mpr ⟨isDigit_of_mem_zeros, digits⟩⟩, ?_, ?_, .inl some⟩
  · have point : row.isEmpty = false := by simpa using some
    simp [Spelling.chars, Spelling.point, Spelling.scale, point, row]
  · have value : digitsValue (['0'] ++ row) = digitsValue ds :=
      (digitsValue_zeros_append 1 _).trans (digitsValue_zeros_append _ _)
    show (digitsValue (['0'] ++ row) : ℚ) * 10 ^ (0 - row.length : Int) = _
    rw [value, List.length_append, List.length_replicate]
    congr 2
    omega

/-- All digits before the point, and zeros behind them. -/
theorem spells_whole (digits : ∀ c ∈ d :: ds, c.isDigit = true) (notZero : d ≠ '0')
    (high : (d :: ds).length ≤ p.toNat) :
    Spells (d :: ds ++ List.replicate (p.toNat - (d :: ds).length) '0' ++ ['.', '0'])
      (digitsValue (d :: ds) * 10 ^ (p - (d :: ds).length)) := by
  obtain ⟨k, places⟩ := Nat.exists_eq_add_of_le high
  have count : p.toNat - (d :: ds).length = k := by omega
  rw [count]
  refine ⟨⟨d :: ds ++ List.replicate k '0', ['0'], none,
    List.forall_mem_append.mpr ⟨digits, isDigit_of_mem_zeros⟩, .inr ⟨d, _, rfl, notZero⟩,
    by simp⟩, rfl, ?_, .inl (List.cons_ne_nil _ [])⟩
  have value : digitsValue (d :: ds ++ List.replicate k '0' ++ ['0']) =
      digitsValue (d :: ds) * 10 ^ (k + 1) := by
    rw [← digitsValue_append_zeros, List.append_assoc, List.replicate_succ']
  have exponent : p - (d :: ds).length = (k + 1 : Nat) + (0 - 1) := by
    rw [List.length_cons] at places ⊢
    omega
  show (digitsValue (d :: ds ++ List.replicate k '0' ++ ['0']) : ℚ) * 10 ^ (0 - 1 : Int) = _
  rw [value, exponent, zpow_add₀ (by norm_num), zpow_natCast, ← mul_assoc]
  push_cast
  rfl

/-- The point among the digits. -/
theorem spells_between (digits : ∀ c ∈ d :: ds, c.isDigit = true) (notZero : d ≠ '0')
    (low : 0 < p) (high : p.toNat < (d :: ds).length) :
    Spells ((d :: ds).take p.toNat ++ '.' :: (d :: ds).drop p.toNat)
      (digitsValue (d :: ds) * 10 ^ (p - (d :: ds).length)) := by
  obtain ⟨k, places⟩ : ∃ k, p.toNat = k + 1 := ⟨p.toNat - 1, by omega⟩
  have some : (d :: ds).drop p.toNat ≠ [] := by simpa using high
  refine ⟨⟨(d :: ds).take p.toNat, (d :: ds).drop p.toNat, none,
    fun c mem => digits c (List.mem_of_mem_take mem),
    .inr ⟨d, ds.take k, by rw [places, List.take_succ_cons], notZero⟩,
    fun c mem => digits c (List.mem_of_mem_drop mem)⟩, ?_, ?_, .inl some⟩
  · have point : ((d :: ds).drop p.toNat).isEmpty = false := by simpa using some
    simp only [Spelling.chars, Spelling.point, Spelling.scale, point, Option.elim_none,
      List.append_nil]
    rfl
  · show (digitsValue ((d :: ds).take p.toNat ++ (d :: ds).drop p.toNat) : ℚ) *
      10 ^ (0 - ((d :: ds).drop p.toNat).length : Int) = _
    rw [List.take_append_drop, List.length_drop]
    congr 2
    omega

/-- Digits that are set out are a number with their value. -/
theorem spells_setOut (digits : ∀ c ∈ d :: ds, c.isDigit = true) (notZero : d ≠ '0')
    (layout : DecimalLayout) (p : Int) :
    Spells (layout.setOut (d :: ds) p) (digitsValue (d :: ds) * 10 ^ (p - (d :: ds).length)) := by
  unfold DecimalLayout.setOut
  split
  · exact spells_scientific digits notZero p
  · split
    · next low => exact spells_small digits (List.cons_ne_nil d ds) low
    · next low =>
      split
      · next high => exact spells_whole digits notZero high
      · next high => exact spells_between digits notZero (Int.not_le.mp low) (Nat.not_le.mp high)

/-! ## Doubles -/

variable {x : Float} {b : Binary}

/-- The magnitude of a double is written by its shortest decimal. -/
theorem spells_magnitudeChars (b : Binary) :
    Spells (magnitudeChars b) ((shortest b).digits * 10 ^ (shortest b).exponent) := by
  by_cases zero : (shortest b).digits = 0
  · refine ⟨⟨['0'], ['0'], none, by simp, .inl rfl, by simp⟩, ?_, ?_, .inl (List.cons_ne_nil _ [])⟩
    · simp [magnitudeChars, zero, Spelling.chars, Spelling.point, Spelling.scale]
    · rw [zero, Nat.cast_zero, zero_mul]
      exact zero_mul _
  · have pos := Nat.pos_of_ne_zero zero
    obtain ⟨d, ds, k, kept, notZero, digits, all, length⟩ := dropTrailingZeros_digitChars pos
    have text : magnitudeChars b =
        plainLayout.setOut (d :: ds) ((d :: ds).length + k + (shortest b).exponent) := by
      have nonzero : ¬((shortest b).digits == 0) = true := by simpa using zero
      rw [magnitudeChars]
      dsimp only
      rw [if_neg nonzero, kept, length, Nat.cast_add]
    -- The zeros that were dropped are in the power of ten again.
    have exponent : ((d :: ds).length + k + (shortest b).exponent - (d :: ds).length : Int) =
        k + (shortest b).exponent := by omega
    have value : (digitsValue (d :: ds) : ℚ) * 10 ^ (k + (shortest b).exponent) =
        (shortest b).digits * 10 ^ (shortest b).exponent := by
      conv_rhs => rw [all]
      rw [zpow_add₀ (by norm_num), zpow_natCast, ← mul_assoc]
      push_cast
      rfl
    rw [text, ← value, ← exponent]
    exact spells_setOut digits notZero plainLayout _

/-- The magnitude of a double is a spelling that is read as the double without its sign. -/
theorem magnitudeChars_spelling (exact : binary? x = some b) (positive : b.negative = false) :
    ∃ s : Spelling, s.chars = magnitudeChars b ∧ s.IsDecimal ∧
      nearestFloat s.digits s.exponent = x := by
  obtain ⟨s, chars, value, decimal⟩ := spells_magnitudeChars b
  refine ⟨s, chars, decimal, ?_⟩
  by_cases zero : b.mantissa = 0
  · have nothing : s.value = 0 := by simp [value, shortest, zero]
    have nothing : (s.digits : ℚ) = 0 :=
      (mul_eq_zero.mp nothing).resolve_right (zpow_ne_zero _ (by norm_num))
    rw [Nat.cast_eq_zero.mp nothing, nearestFloat_zero, eq_zero_of_binary? exact positive zero]
  · exact nearestFloat_of_shortest exact positive zero value

/-- The digits of a natural number. -/
def Spelling.ofNat (n : Nat) : Spelling where
  whole := Nat.toDigits 10 n
  fraction := []
  power := none
  whole_digits _ := isDigit_of_mem_toDigits
  whole_first := by
    by_cases zero : n = 0
    · exact .inl (by rw [zero]; rfl)
    · exact .inr (toDigits_eq_cons (Nat.pos_of_ne_zero zero))
  fraction_digits := nofun

theorem Spelling.chars_ofNat (n : Nat) : (Spelling.ofNat n).chars = Nat.toDigits 10 n := by
  simp [Spelling.chars, Spelling.point, Spelling.scale, Spelling.ofNat]

theorem Spelling.digits_ofNat (n : Nat) : (Spelling.ofNat n).digits = n := by
  rw [digits, ofNat, List.append_nil, digitsValue_toDigits]

/-- An integer as text. -/
theorem toString_eq (z : Int) : toString z =
    String.ofList ((if z < 0 then ['-'] else []) ++ (Spelling.ofNat z.natAbs).chars) := by
  rw [Spelling.chars_ofNat]
  cases z with
  | ofNat m =>
    have nonneg : ¬Int.ofNat m < 0 := Int.not_lt.mpr (Int.natCast_nonneg m)
    rw [if_neg nonneg]
    rfl
  | negSucc m =>
    rw [if_pos (Int.negSucc_lt_zero m), List.singleton_append, ← String.toList_inj,
      String.toList_ofList]
    exact (String.toList_append ..).trans (congrArg ('-' :: ·) Nat.toList_repr)

/-- The digits of a whole double are read as the double. -/
theorem nearestFloat_wholePart (exact : binary? x = some b) (positive : b.negative = false)
    (whole : b.isWhole = true) : nearestFloat b.wholePart 0 = x := by
  by_cases zero : b.mantissa = 0
  · have part : b.wholePart = 0 := by simp [Binary.wholePart, Binary.fraction, zero]
    rw [eq_zero_of_binary? exact positive zero, part]
    rfl
  · obtain ⟨pos, unpacked⟩ := unpack_of_binary? exact positive zero
    have h := canonical_of_unpack unpacked
    have value : (b.wholePart : ℚ) = b.mantissa * 2 ^ b.exponent := by
      rw [← fraction_value, Binary.wholePart,
        Nat.cast_div_charZero (Nat.dvd_of_mod_eq_zero (by simpa [Binary.isWhole] using whole))]
    have magnitude : (0 : ℚ) < b.mantissa * 2 ^ b.exponent / 2 ^ 54 :=
      div_pos (mul_pos (Nat.cast_pos.mpr pos) (by positivity)) (by positivity)
    refine nearestFloat_in_interval unpacked ?_
    rw [zpow_zero, mul_one, value]
    exact holds_of_near h (by rwa [sub_self, abs_zero])

end LineCalc.Decimal
