import LineCalc.Proofs.Catalog.Symbols
import LineCalc.Proofs.Decimal.Quotient
import LineCalc.Proofs.Value.Format

/-!
# Signs of amounts as text

In the text of a value the amount begins with the first digit, and a minus sign in front of it,
before or behind a symbol, is its sign. A negative amount should have the sign unless only zeros are
shown. For plain amounts and all that are shown as such this is so. Money takes its sign from the
amount before it is rounded to two decimals, so what is owed of half a cent or less is shown as a
negative zero.

Results:
1. `shown_parts`: the sign and the zeros of a text, by the parts it is made of.
2. `neg_mul_hundred_iff`: a percentage is negative exactly if the amount held for it is.
3. `signLaw_iff`: when the sign is right, for all denominations.
4. `signLaw_money_exTenthOfCent`: a negative zero.
-/

namespace LineCalc

open Decimal

variable {n : Float} {q : ℚ} {amount text : String} {front behind : List Char} {s : Spelling}
  {places k precision : Nat} {d : Denomination}

/-! ## Texts -/

/-- A character of an amount without its sign. -/
def isFigure (c : Char) : Bool := c.isDigit || c == '.'

/-- The amount in a text, from its first digit on. -/
def figuresOf (text : String) : List Char :=
  (text.toList.dropWhile fun c => !c.isDigit).takeWhile isFigure

/-- A minus sign is shown before the amount. -/
def ShowsMinus (text : String) : Prop := '-' ∈ text.toList.takeWhile fun c => !c.isDigit

/-- An amount is shown, and all of its digits are zero. -/
def ShowsZero (text : String) : Prop :=
  figuresOf text ≠ [] ∧ ∀ c ∈ figuresOf text, c.isDigit = true → c = '0'

/-- A minus sign is shown exactly for a negative amount of which not only zeros are shown. -/
def SignLaw (q : ℚ) (text : String) : Prop := ShowsMinus text ↔ q < 0 ∧ ¬ShowsZero text

theorem chars_of_noPower (noPower : s.power = none) : s.chars = s.whole ++ s.point := by
  have scale : s.scale = [] := by rw [Spelling.scale, noPower]; rfl
  rw [Spelling.chars, scale, List.append_nil]

/-- A number without a power of ten is made of its digits and a point. -/
theorem mem_chars_or (noPower : s.power = none) {c : Char} (mem : c ∈ s.chars) :
    c ∈ s.whole ++ s.fraction ∨ c = '.' := by
  rw [chars_of_noPower noPower, Spelling.point, List.mem_append] at mem
  rcases mem with whole | point
  · exact .inl (List.mem_append_left _ whole)
  split at point
  · cases point
  · rcases List.mem_cons.mp point with rfl | fraction
    · exact .inr rfl
    · exact .inl (List.mem_append_right _ fraction)

/-- The sign and the zeros of a text that is made of an amount, something in front without a digit
and something behind without one next to the amount. -/
theorem shown_parts (made : text.toList = front ++ (s.chars ++ behind)) (noPower : s.power = none)
    (noDigits : ∀ c ∈ front, c.isDigit = false)
    (apart : ∀ c ∈ behind.takeWhile isFigure, c.isDigit = false) :
    (ShowsMinus text ↔ '-' ∈ front) ∧ (ShowsZero text ↔ s.value = 0) := by
  obtain ⟨first, others, chars, digit⟩ := s.exists_chars_cons
  have digits : ∀ c ∈ s.whole ++ s.fraction, c.isDigit = true :=
    List.forall_mem_append.mpr ⟨s.whole_digits, s.fraction_digits⟩
  have lead : (front ++ (s.chars ++ behind)).takeWhile (fun c => !c.isDigit) = front := by
    rw [List.takeWhile_append_of_pos (by simpa using noDigits), chars]
    simp [digit]
  have rest :
      (front ++ (s.chars ++ behind)).dropWhile (fun c => !c.isDigit) = s.chars ++ behind := by
    rw [List.dropWhile_append_of_pos (by simpa using noDigits), chars]
    simp [digit]
  have figures : figuresOf text = s.chars ++ behind.takeWhile isFigure := by
    have all : ∀ c ∈ s.chars, isFigure c = true := by
      intro c mem
      rcases mem_chars_or noPower mem with digit | rfl
      · rw [isFigure, digits c digit, Bool.true_or]
      · rfl
    rw [figuresOf, made, rest, List.takeWhile_append_of_pos all]
  constructor
  · rw [ShowsMinus, made, lead]
  · rw [ShowsZero, figures, s.value_eq_zero_iff, and_iff_right (by simp [chars]),
      List.forall_mem_append]
    constructor
    · rintro ⟨zeros, -⟩ c mem
      exact zeros c (Spelling.mem_chars mem) (digits c mem)
    · refine fun zeros => ⟨fun c mem digit => ?_, fun c mem digit => ?_⟩
      · rcases mem_chars_or noPower mem with mem | rfl
        · exact zeros c mem
        · cases digit
      · rw [apart c mem] at digit
        cases digit

/-! ## A hundred times an amount -/

theorem rounds_mul_hundred_of_pos (finite : n.isFinite = true) (pos : 0 < exactValue n) :
    Rounds (100 * exactValue n) (n * 100) := by
  obtain ⟨m, e, posM, unpacked, value⟩ := unpack_of_pos finite pos
  have enough : e + -46 ≤ Float.Model.Format.binary64.targetExponent
      (Float.Model.totalExponent (m * (100 * 2 ^ 46) / 1) (e + -46)) := by
    have bits : 52 ≤ (m * (100 * 2 ^ 46)).log2 :=
      (Nat.le_log2 (Nat.ne_of_gt (Nat.mul_pos posM hundred_pos))).mpr (by omega)
    rw [targetExponent_eq, Nat.div_one]
    omega
  have same : ((m * (100 * 2 ^ 46) : Nat) / (1 : Nat) : ℚ) * 2 ^ (e + -46) = 100 * (m * 2 ^ e) := by
    rw [Nat.cast_one, div_one, Nat.cast_mul, zpow_add₀ two_ne_zero]
    linear_combination (m * 2 ^ e : ℚ) * value_hundred
  have rounds := rounds_positive Nat.one_pos enough
  rw [same, ← value, Nat.mod_one, Nat.div_one] at rounds
  rw [mul_hundred_eq, unpacked]
  exact rounds

/-- The product with a hundred is rounded once. -/
theorem rounds_mul_hundred (finite : n.isFinite = true) :
    Rounds (100 * exactValue n) (n * 100) := by
  rcases lt_trichotomy (exactValue n) 0 with negative | zero | positive
  · have opposite : 0 < exactValue (-n) := by
      rw [exactValue_neg]
      linarith
    have rounds := (rounds_mul_hundred_of_pos ((isFinite_neg n).trans finite) opposite).neg
    rwa [exactValue_neg, mul_neg, neg_neg, neg_mul_double, neg_neg_double] at rounds
  · obtain ⟨s, unpacked⟩ := unpack_of_zero finite zero
    have same : n * 100 = n := by
      have parts := ofModel_pack_unpack n
      rw [unpacked] at parts
      rw [mul_hundred_eq, unpacked]
      cases s <;> exact parts
    have rounds := rounds_exactValue finite
    rw [zero] at rounds ⊢
    rwa [mul_zero, same]
  · exact rounds_mul_hundred_of_pos finite positive

/-- A hundred times an amount is a number with the same sign, or the infinity with this sign. -/
theorem mul_hundred_outcome (finite : n.isFinite = true) :
    (n * 100).isFinite = true ∧ (exactValue (n * 100) < 0 ↔ exactValue n < 0) ∨
      0 < exactValue n ∧ n * 100 = 1 / 0 ∨ exactValue n < 0 ∧ n * 100 = -(1 / 0) := by
  have rounds := rounds_mul_hundred finite
  rcases lt_or_ge |100 * exactValue n| integerLimit with less | beyond
  · -- The amount itself is too near for a double with the other sign.
    have nearest := rounds.nearest less
    have near := nearest.near n finite
    have distance : |100 * exactValue n - exactValue n| = 99 * |exactValue n| := by
      have difference : 100 * exactValue n - exactValue n = 99 * exactValue n := by ring
      rw [difference, abs_mul, abs_of_pos (by norm_num)]
    rw [distance] at near
    obtain ⟨low, high⟩ := abs_le.mp near
    refine .inl ⟨nearest.finite, fun negative => ?_, fun negative => ?_⟩
    · by_contra nonneg
      rw [abs_of_nonneg (not_lt.mp nonneg)] at high
      linarith
    · rw [abs_of_neg negative] at low
      linarith
  · have infinite := rounds.beyond beyond
    right
    rcases lt_trichotomy (exactValue n) 0 with negative | zero | positive
    · rw [if_neg (by linarith)] at infinite
      exact .inr ⟨negative, infinite⟩
    · rw [zero, mul_zero, abs_zero] at beyond
      exact absurd limit_pos beyond.not_gt
    · rw [if_pos (by linarith)] at infinite
      exact .inl ⟨positive, infinite⟩

/-! ## Symbols -/

/-- The characters have neither a digit nor a minus sign among them. -/
def IsPlain (cs : List Char) : Prop := ∀ c ∈ cs, c.isDigit = false ∧ c ≠ '-'

theorem toNat_lt_of_isDigit {c : Char} (digit : c.isDigit = true) : c.toNat < 128 := by
  simp only [Char.isDigit, Bool.and_eq_true, decide_eq_true_eq] at digit
  have most : c.toNat ≤ 57 := digit.2
  omega

theorem isPlain_of_mem_symbols {symbol : String} (mem : symbol ∈ Denomination.symbols) :
    IsPlain symbol.toList := by
  intro c inside
  obtain ⟨noDigit, noMinus⟩ := Denomination.symbols_plain mem inside
  refine ⟨Bool.eq_false_iff.mpr fun digit => ?_, noMinus⟩
  rw [Text.isDigit, if_pos (toNat_lt_of_isDigit digit), digit] at noDigit
  cases noDigit

theorem isPlain_of_letters {cs : List Char} (letters : ∀ c ∈ cs, Text.isLetter c = true) :
    IsPlain cs := by
  intro c mem
  have letter := letters c mem
  constructor
  · refine Bool.eq_false_iff.mpr fun digit => ?_
    rw [Text.isLetter, if_pos (toNat_lt_of_isDigit digit), Char.isAlpha] at letter
    simp only [Char.isDigit, Char.isUpper, Char.isLower, Bool.and_eq_true, Bool.or_eq_true,
      decide_eq_true_eq] at digit letter
    have most : c.toNat ≤ 57 := digit.2
    rcases letter with upper | lower
    · have least : 65 ≤ c.toNat := upper.1
      omega
    · have least : 97 ≤ c.toNat := lower.1
      omega
  · rintro rfl
    cases letter

/-- The code of a currency that is not in the catalog is made of letters. -/
def Denomination.Lettered (d : Denomination) : Prop :=
  ∀ code, d = .currency (.unlisted code) → ∀ c ∈ code.toList, Text.isLetter c = true

/-- The currencies that are made from codes are such. -/
theorem lettered_of_ofAnyCode? {code : String} {c : Currency}
    (h : Currency.ofAnyCode? code = some c) : (Denomination.currency c).Lettered := by
  rintro other ⟨⟩
  rw [Currency.ofAnyCode?] at h
  generalize Name.asCode code = key at h
  rcases Denomination.of_orElse h with listed | unlisted
  · have mem := List.mem_of_find?_eq_some listed
    exact absurd mem (by simp [Currency.listed])
  · split at unlisted
    · next letters =>
      cases unlisted
      rw [Bool.and_eq_true, List.all_eq_true] at letters
      exact letters.2
    · cases unlisted

theorem isPlain_symbol {c : Currency} (lettered : (Denomination.currency c).Lettered) :
    IsPlain c.symbol.toList := by
  cases c with
  | unlisted code => exact isPlain_of_letters (lettered code rfl)
  | _ =>
    refine isPlain_of_mem_symbols (List.mem_append_left _ (List.mem_map_of_mem ?_))
    decide

theorem isPlain_symbol_crypto {c : Crypto} {symbol : String} (h : c.entry.symbol = some symbol) :
    IsPlain symbol.toList := by
  refine isPlain_of_mem_symbols (List.mem_append_right _ (List.mem_filterMap.mpr ⟨c, ?_, h⟩))
  cases c <;> decide

/-! ## Denominations -/

/-- A number that is shown, with something in front and behind, has the right sign. -/
theorem ShownAs.signLaw (h : ShownAs q places amount k s) (front behind : List Char)
    (plain : IsPlain front) (apart : ∀ c ∈ behind.takeWhile isFigure, c.isDigit = false)
    (made : text.toList = front ++ (amount.toList ++ behind)) : SignLaw q text := by
  obtain ⟨sign, signed⟩ : ∃ sign, (if q < 0 ∧ k ≠ 0 then ['-'] else []) = sign := ⟨_, rfl⟩
  have noDigits : ∀ c ∈ front ++ sign, c.isDigit = false := by
    refine List.forall_mem_append.mpr ⟨fun c mem => (plain c mem).1, ?_⟩
    rw [← signed]
    split <;> simp
  have minus : '-' ∈ front ++ sign ↔ q < 0 ∧ k ≠ 0 := by
    rw [List.mem_append, or_iff_right fun mem => (plain _ mem).2 rfl, ← signed]
    split
    · next shown => exact iff_of_true (List.mem_singleton.mpr rfl) shown
    · next hidden => exact iff_of_false List.not_mem_nil hidden
  have zero : s.value = 0 ↔ k = 0 := by
    rw [h.value, div_eq_zero_iff, or_iff_left (by positivity), Nat.cast_eq_zero]
  have made : text.toList = (front ++ sign) ++ (s.chars ++ behind) := by
    rw [made, h.text, signed, String.toList_ofList]
    simp
  obtain ⟨showsMinus, showsZero⟩ := shown_parts made h.noPower noDigits apart
  rw [SignLaw, showsMinus, showsZero, minus, zero]

theorem signLaw_formatNumber (finite : n.isFinite = true) (precision : Nat) :
    SignLaw (exactValue n) (formatNumber n precision) := by
  obtain ⟨k, s, shown⟩ := formatNumber_shown finite precision
  exact shown.signLaw [] [] (List.forall_mem_nil _) (List.forall_mem_nil _) (by simp)

theorem signLaw_coded (finite : n.isFinite = true) (precision : Nat) (code : String) :
    SignLaw (exactValue n) (formatNumber n precision ++ " " ++ code) := by
  obtain ⟨k, s, shown⟩ := formatNumber_shown finite precision
  exact shown.signLaw [] (' ' :: code.toList) (List.forall_mem_nil _) (List.forall_mem_nil _)
    (by simp)

theorem signLaw_crypto (finite : n.isFinite = true) (c : Crypto) (precision : Nat) :
    SignLaw (exactValue n) (formatCrypto n c precision) := by
  rw [formatCrypto]
  split
  · next symbol found =>
    obtain ⟨k, s, shown⟩ := formatNumber_shown finite (max precision c.entry.decimals)
    exact shown.signLaw symbol.toList [] (isPlain_symbol_crypto found) (List.forall_mem_nil _)
      (by simp)
  · exact signLaw_coded finite _ _

theorem signLaw_percent (finite : n.isFinite = true) (precision : Nat) :
    SignLaw (exactValue n) (formatNumber (n * 100) precision ++ "%") := by
  rcases mul_hundred_outcome finite with ⟨finite', same⟩ | ⟨positive, infinite⟩ |
    ⟨negative, infinite⟩
  · obtain ⟨k, s, shown⟩ := formatNumber_shown finite' precision
    have law : SignLaw _ (formatNumber (n * 100) precision ++ "%") :=
      shown.signLaw [] ['%'] (List.forall_mem_nil _) (List.forall_mem_nil _) (by simp)
    rwa [SignLaw, same] at law
  · have text : formatNumber (1 / 0) precision = "Inf" := rfl
    have noMinus : ¬ShowsMinus ("Inf" ++ "%") := by unfold ShowsMinus; decide
    rw [infinite, text]
    exact iff_of_false noMinus fun negative => negative.1.not_gt positive
  · have text : formatNumber (-(1 / 0)) precision = "-Inf" := rfl
    have minus : ShowsMinus ("-Inf" ++ "%") := by unfold ShowsMinus; decide
    have noFigures : figuresOf ("-Inf" ++ "%") = [] := by decide
    rw [infinite, text]
    exact iff_of_true minus ⟨negative, fun zero => zero.1 noFigures⟩

/-- What is owed of half a cent or less. -/
theorem small_debt_iff {k : Nat} (nearest : IsNearest (|q| * 10 ^ 2) k) :
    q < 0 ∧ k = 0 ↔ -1 / 200 ≤ q ∧ q < 0 := by
  rw [nearest.eq_zero_iff, and_comm]
  refine and_congr_left fun negative => ?_
  rw [abs_of_neg negative]
  constructor <;> intro small <;> linarith

/-- Money has the right sign unless half a cent or less is owed. -/
theorem signLaw_money (finite : n.isFinite = true) {c : Currency}
    (lettered : (Denomination.currency c).Lettered) : SignLaw (exactValue n) (formatMoney n c) ↔
      ¬(-1 / 200 ≤ exactValue n ∧ exactValue n < 0) := by
  obtain ⟨b, exact⟩ := Option.isSome_iff_exists.mp ((binary?_isSome n).trans finite)
  obtain ⟨k, count⟩ : ∃ k, Binary.inPlaces { b with negative := false } 2 = k := ⟨_, rfl⟩
  have amount : fixedText n.abs 2 = String.ofList (fixedSpelling k 2).chars := by
    rw [fixedText, binary?_abs exact, chars_fixedSpelling, ← count]
    rfl
  have nearest : IsNearest (|exactValue n| * 10 ^ 2) k := by
    have nearest := isNearest_inPlaces { b with negative := false } 2
    rwa [count, ← exactValue_of_binary? (binary?_abs exact), exactValue_abs finite, abs_abs]
      at nearest
  have zero : (fixedSpelling k 2).value = 0 ↔ k = 0 := by
    rw [value_fixedSpelling, div_eq_zero_iff, or_iff_left (by norm_num), Nat.cast_eq_zero]
  have negative : n < 0 ↔ exactValue n < 0 := by
    rw [lt_iff_exactValue finite rfl, exactValue_zero]
  have plain := isPlain_symbol lettered
  have noDigit (c) (mem) := (plain c mem).1
  obtain ⟨sign, signed, noDigits, minus⟩ : ∃ sign : String, (if n < 0 then "-" else "") = sign ∧
      (∀ c ∈ sign.toList, c.isDigit = false) ∧ ('-' ∈ sign.toList ↔ exactValue n < 0) := by
    rw [← negative]
    refine ⟨_, rfl, ?_⟩
    split <;> simp_all
  have parts : (ShowsMinus (formatMoney n c) ↔ exactValue n < 0) ∧
      (ShowsZero (formatMoney n c) ↔ k = 0) := by
    rw [formatMoney, signed, amount, ← zero, ← minus]
    split
    · have apart : ∀ c' ∈ c.symbol.toList.takeWhile isFigure, c'.isDigit = false :=
        fun c' mem => noDigit c' ((List.takeWhile_sublist _).mem mem)
      exact shown_parts (by simp) rfl noDigits apart
    · have both : ∀ c' ∈ sign.toList ++ c.symbol.toList, c'.isDigit = false :=
        List.forall_mem_append.mpr ⟨noDigits, noDigit⟩
      have inSign : '-' ∈ sign.toList ++ c.symbol.toList ↔ '-' ∈ sign.toList := by
        rw [List.mem_append, or_iff_left fun mem => (plain _ mem).2 rfl]
      rw [← inSign]
      have made : (sign ++ c.symbol ++ String.ofList (fixedSpelling k 2).chars).toList =
          (sign.toList ++ c.symbol.toList) ++ ((fixedSpelling k 2).chars ++ []) := by simp
      exact shown_parts made rfl both (List.forall_mem_nil _)
  rw [SignLaw, parts.1, parts.2, ← small_debt_iff nearest]
  tauto

/-- What is owed of a tenth of a cent is shown as a negative zero. -/
theorem signLaw_money_exTenthOfCent :
    let text := (Value.amount (-0.001) (.currency .usDollar)).format 2
    (-0.001 : Float).isFinite = true ∧ text = "-$0.00" ∧ ¬SignLaw (exactValue (-0.001)) text := by
  intro text
  have parts : binary? (-0.001) = some ⟨true, 4611686018427388, -62⟩ := by decide +kernel
  have value : exactValue (-0.001) = -(4611686018427388 * 2 ^ (-62 : Int)) :=
    exactValue_of_binary? parts
  have law := signLaw_money (n := -0.001) (c := .usDollar) rfl nofun
  refine ⟨rfl, by decide +kernel, fun holds => law.mp holds ?_⟩
  rw [value]
  norm_num

/-- In the text of a finite amount, of whatever denomination and at whatever precision, a minus sign
stands before the amount exactly if it is negative and not only zeros are shown, unless half a cent
or less (in hundredths of its currency) is owed: then there is the sign of a zero. -/
theorem signLaw_iff (finite : n.isFinite = true) (lettered : d.Lettered) (precision : Nat) :
    SignLaw (exactValue n) ((Value.amount n d).format precision) ↔
      ¬((∃ c, d = .currency c) ∧ -1 / 200 ≤ exactValue n ∧ exactValue n < 0) := by
  cases d with
  | currency c =>
    show SignLaw _ (formatMoney n c) ↔ _
    rw [signLaw_money finite lettered]
    simp
  | plain => exact iff_of_true (signLaw_formatNumber finite precision) (by simp)
  | percent => exact iff_of_true (signLaw_percent finite precision) (by simp)
  | unit u => exact iff_of_true (signLaw_coded finite precision u.code) (by simp)
  | metal m => exact iff_of_true (signLaw_coded finite precision m.code) (by simp)
  | crypto c => exact iff_of_true (signLaw_crypto finite c precision) (by simp)

/-- Two of a currency that is not in the catalog, owed. -/
theorem signLaw_iff_exUnlisted :
    let owed : Denomination := .currency (.unlisted "XYZ")
    (-2 : Float).isFinite = true ∧ owed.Lettered ∧
      SignLaw (exactValue (-2)) ((Value.amount (-2) owed).format 2) := by
  intro owed
  have lettered : owed.Lettered := by
    intro code same
    rw [← Currency.unlisted.inj (Denomination.currency.inj same)]
    exact List.all_eq_true.mp rfl
  have parts : binary? (-2) = some ⟨true, 2 ^ 52, -51⟩ := by decide +kernel
  have value : exactValue (-2) = -2 := by
    rw [exactValue_of_binary? parts]
    norm_num [Binary.value]
  refine ⟨rfl, lettered, (signLaw_iff rfl lettered 2).mpr fun small => ?_⟩
  rw [value] at small
  norm_num at small

end LineCalc
