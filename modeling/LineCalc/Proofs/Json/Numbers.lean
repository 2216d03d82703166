import LineCalc.Json.Writer
import LineCalc.Proofs.Decimal.Spelling
import LineCalc.Proofs.Json.Reader

/-!
# Numbers written and read

A number is read from what is written for it, before a line break or a comma. An integer is written
by its digits, a double by those of its shortest decimal with a point or a power of ten, which is
read as the double that it spells.

Results:
1. `Json.readValue_integer`: an integer that is not too long.
2. `Json.readValue_decimal`: every double, with the words for those that are no numbers.
-/

namespace LineCalc.Json

open LineCalc.Decimal

/-- What can follow a value that is written on a line. -/
def Delimited (rest : List Char) : Prop := ∀ c cs, rest = c :: cs → c = ',' ∨ c = '\n'

variable {rest cs : List Char}

theorem delimited_nil : Delimited [] := nofun

/-! ## Scalars -/

theorem readScalar_word {value : Json} {n : Nat} (word : wordAt? cs = some (value, n))
    (shorter : (cs.drop n).length < cs.length) :
    (readScalar cs).found = .ok (value, cs.drop n) := by
  unfold readScalar
  split
  · next eq =>
    cases word.symm.trans eq
    rw [dif_pos shorter]
    rfl
  · next eq => cases word.symm.trans eq

/-- A word is read as its value. -/
theorem readValue_word {c : Char} {value : Json}
    (word : wordAt? (c :: cs ++ rest) = some (value, (c :: cs).length))
    (letter : c ≠ '"' ∧ c ≠ '[' ∧ c ≠ '\x7b') :
    (readValue (c :: cs ++ rest)).found = .ok (value, rest) := by
  have shorter : ((c :: cs ++ rest).drop (c :: cs).length).length < (c :: cs ++ rest).length := by
    simp
  have read := readScalar_word word shorter
  rw [List.drop_left] at read
  rw [readValue_scalar, read]
  · exact fun _ eq => letter.1 (List.cons.inj eq).1
  · exact fun _ eq => letter.2.1 (List.cons.inj eq).1
  · exact fun _ eq => letter.2.2 (List.cons.inj eq).1

/-- What is no word is a number. -/
theorem readScalar_number {c : Char} (noWord : wordAt? (c :: cs) = none) (unsigned : c ≠ '-') :
    readScalar (c :: cs) = readNumber false (c :: cs) := by
  rw [readScalar, noWord]
  intro rest eq
  exact unsigned (List.cons.inj eq).1

theorem readScalar_minus (noWord : wordAt? ('-' :: cs) = none) :
    (readScalar ('-' :: cs)).found = (readNumber true cs).found := by
  rw [readScalar, noWord]
  show Outcome.found ((readNumber true cs).map _) = _
  cases readNumber true cs <;> rfl

/-- No word begins with a digit or a blank, or with a closing bracket. -/
theorem wordAt?_eq_none {c : Char} (other : c ∉ ['n', 't', 'f', 'N', 'I', '-']) (cs : List Char) :
    wordAt? (c :: cs) = none := by
  simp only [List.mem_cons, List.not_mem_nil, or_false, not_or] at other
  obtain ⟨n, t, f, N, I, minus⟩ := other
  simp [wordAt?, words, List.isPrefixOf, Ne.symm n, Ne.symm t, Ne.symm f, Ne.symm N, Ne.symm I,
    Ne.symm minus]

theorem wordAt?_minus {c : Char} (other : c ≠ 'I') (cs : List Char) :
    wordAt? ('-' :: c :: cs) = none := by
  simp [wordAt?, words, List.isPrefixOf, Ne.symm other]

theorem ne_of_isDigit {c d : Char} (digit : c.isDigit = true) (other : d.isDigit = false) :
    c ≠ d := by
  rintro rfl
  rw [digit] at other
  cases other

/-- A value that begins with a digit is a number. -/
theorem readValue_digit {c : Char} (digit : c.isDigit = true) (cs : List Char) :
    readValue (c :: cs) = readNumber false (c :: cs) := by
  have ne {d : Char} (other : d.isDigit = false) : c ≠ d := ne_of_isDigit digit other
  rw [readValue_scalar]
  · refine readScalar_number (wordAt?_eq_none ?_ cs) (ne rfl)
    simp only [List.mem_cons, List.not_mem_nil, or_false, not_or]
    exact ⟨ne rfl, ne rfl, ne rfl, ne rfl, ne rfl, ne rfl⟩
  all_goals
    intro rest eq
    exact ne rfl (List.cons.inj eq).1

/-- A value that begins with a minus and a digit is a negative number. -/
theorem readValue_minus {c : Char} (digit : c.isDigit = true) (cs : List Char) :
    (readValue ('-' :: c :: cs)).found = (readNumber true (c :: cs)).found := by
  rw [readValue_scalar]
  · exact readScalar_minus (wordAt?_minus (ne_of_isDigit digit rfl) cs)
  all_goals
    intro rest eq
    cases (List.cons.inj eq).1

section

variable (ends : Delimited rest)

include ends

theorem Delimited.takeWhile : rest.takeWhile Char.isDigit = [] := by
  cases rest with
  | nil => rfl
  | cons c cs => rcases ends c cs rfl with rfl | rfl <;> rfl

theorem Delimited.readFraction : readFraction rest = ([], rest) := by
  cases rest with
  | nil => rfl
  | cons c cs => rcases ends c cs rfl with rfl | rfl <;> rfl

theorem Delimited.readPower : readPower rest = (none, rest) := by
  cases rest with
  | nil => rfl
  | cons c cs => rcases ends c cs rfl with rfl | rfl <;> rfl

/-- The digits of a number are read as that number. -/
theorem readNumber_toDigits (negative : Bool) {n : Nat}
    (short : (Nat.toDigits 10 n).length ≤ longestInteger) :
    (readNumber negative (Nat.toDigits 10 n ++ rest)).found =
      .ok (.integer (if negative then -(n : Int) else n), rest) := by
  by_cases zero : n = 0
  · subst zero
    show (readNumber negative ('0' :: rest)).found = _
    rw [readNumber_found, spanWhole]
    simp only [ends.readFraction, ends.readPower]
    cases negative <;> rfl
  · obtain ⟨d, ds, eq, notZero⟩ := toDigits_eq_cons (Nat.pos_of_ne_zero zero)
    have row : ∀ c ∈ d :: ds, c.isDigit = true := by
      rw [← eq]
      exact fun c => isDigit_of_mem_toDigits
    have value : digitsValue (d :: ds) = n := by rw [← eq, digitsValue_toDigits]
    have read := readNumber_digits negative notZero row ends.takeWhile ends.readFraction
      ends.readPower
    rw [← eq, if_neg (Nat.not_lt.mpr short)] at read
    rw [eq] at read ⊢
    rw [List.cons_append, read]
    show Except.ok (Json.integer (if negative then -((digitsValue (d :: ds) : Nat) : Int) else
      (digitsValue (d :: ds) : Nat)), rest) = _
    rw [value]

end

/-- An integer is read as itself. -/
theorem readValue_integer {n : Int} (short : (Nat.toDigits 10 n.natAbs).length ≤ longestInteger)
    (ends : Delimited rest) :
    (readValue ((toString n).toList ++ rest)).found = .ok (.integer n, rest) := by
  have digits (m : Nat) : ∃ c cs, Nat.toDigits 10 m = c :: cs ∧ c.isDigit = true := by
    obtain ⟨c, cs, eq⟩ := List.exists_cons_of_ne_nil Nat.toDigits_ne_nil (l := Nat.toDigits 10 m)
    exact ⟨c, cs, eq, isDigit_of_mem_toDigits (eq ▸ List.mem_cons_self)⟩
  cases n with
  | ofNat m =>
    obtain ⟨c, cs, eq, digit⟩ := digits m
    have written : (toString (Int.ofNat m)).toList = Nat.toDigits 10 m := Nat.toList_repr
    have read : (readNumber false (Nat.toDigits 10 m ++ rest)).found = _ :=
      readNumber_toDigits ends false short
    rw [eq, List.cons_append] at read
    rw [written, eq, List.cons_append, readValue_digit digit, read]
    rfl
  | negSucc m =>
    obtain ⟨c, cs, eq, digit⟩ := digits (m + 1)
    have written : (toString (Int.negSucc m)).toList = '-' :: Nat.toDigits 10 (m + 1) :=
      (String.toList_append ..).trans (congrArg ('-' :: ·) Nat.toList_repr)
    have read : (readNumber true (Nat.toDigits 10 (m + 1) ++ rest)).found = _ :=
      readNumber_toDigits ends true short
    rw [eq, List.cons_append] at read
    rw [written, eq, List.cons_append, List.cons_append, readValue_minus digit, read]
    rfl

/-! ## Decimals -/

/-- The double nearest to a decimal, or its opposite. -/
def signedFloat (negative : Bool) (digits : Nat) (exponent : Int) : Float :=
  if negative then -nearestFloat digits exponent else nearestFloat digits exponent

/-- A number with a fraction or with a power of ten is a decimal. -/
theorem readNumber_decimal {whole decimals afterWhole afterPoint : List Char} {power : Option Int}
    (negative : Bool) (spanned : spanWhole cs = (whole, afterWhole)) (nonempty : whole ≠ [])
    (fraction : readFraction afterWhole = (decimals, afterPoint))
    (scaled : readPower afterPoint = (power, rest)) (real : decimals ≠ [] ∨ power ≠ none) :
    (readNumber negative cs).found =
      .ok (.decimal (signedFloat negative (digitsValue (whole ++ decimals))
        (power.getD 0 - decimals.length)), rest) := by
  have notEmpty : ¬whole.isEmpty = true := by simpa using nonempty
  have notInteger : ¬(decimals.isEmpty && power.isNone) = true := by
    rcases real with real | real <;> simp [real]
  rw [readNumber_found, spanned]
  dsimp only
  rw [fraction]
  dsimp only
  rw [scaled]
  dsimp only
  rw [if_neg notEmpty, if_neg notInteger]
  rfl

/-- The digits behind a point. -/
theorem readFraction_row {row : List Char} (digits : ∀ c ∈ row, c.isDigit = true)
    (nonempty : row ≠ []) (ends : rest.takeWhile Char.isDigit = []) :
    readFraction ('.' :: (row ++ rest)) = (row, rest) := by
  rw [readFraction, spanDigitChars_row digits ends, if_neg (by simpa using nonempty)]

/-- A power of ten is read as itself. -/
theorem readPower_exponentChars (e : Int) (ends : Delimited rest) :
    readPower (exponentChars e ++ rest) = (some e, rest) := by
  obtain ⟨row, eq, nonempty, digits, value⟩ := exponentChars_eq e
  have read : readPower (exponentChars e ++ rest) =
      (some (if decide (e < 0) = true then -(digitsValue row : Int) else digitsValue row),
        rest) := by
    rw [eq, List.cons_append, List.cons_append, readPower, if_pos (by decide),
      splitSign_written]
    dsimp only
    rw [spanDigitChars_row digits ends.takeWhile]
    dsimp only
    rw [if_neg (by simpa using nonempty)]
    rfl
  rw [read, value, signed_natAbs]

/-- A number that is written with a point or a power of ten is read as a decimal. -/
theorem readNumber_spelling (s : Spelling) (decimal : s.IsDecimal) (negative : Bool)
    (ends : Delimited rest) : (readNumber negative (s.chars ++ rest)).found =
      .ok (.decimal (signedFloat negative s.digits s.exponent), rest) := by
  have noDigit : (s.scale ++ rest).takeWhile Char.isDigit = [] := by
    unfold Spelling.scale
    cases s.power with
    | none => exact ends.takeWhile
    | some e =>
      obtain ⟨row, letter, -⟩ := exponentChars_eq e
      rw [Option.elim_some, letter]
      rfl
  have scaled : readPower (s.scale ++ rest) = (s.power, rest) := by
    unfold Spelling.scale
    cases s.power with
    | none => exact ends.readPower
    | some e => exact readPower_exponentChars e ends
  have fraction : readFraction (s.point ++ (s.scale ++ rest)) = (s.fraction, s.scale ++ rest) := by
    unfold Spelling.point
    split
    · next none =>
      rw [List.isEmpty_iff.mp none, List.nil_append]
      unfold Spelling.scale
      cases s.power with
      | none => exact ends.readFraction
      | some e =>
        obtain ⟨row, letter, -⟩ := exponentChars_eq e
        rw [Option.elim_some, letter]
        rfl
    · next some => exact readFraction_row s.fraction_digits (by simpa using some) noDigit
  have spanned : spanWhole (s.whole ++ (s.point ++ (s.scale ++ rest))) =
      (s.whole, s.point ++ (s.scale ++ rest)) := by
    rcases s.whole_first with zero | ⟨d, ds, eq, notZero⟩
    · rw [zero]
      rfl
    · have digits := s.whole_digits
      rw [eq] at digits ⊢
      refine spanWhole_row notZero digits ?_
      unfold Spelling.point
      split
      · exact noDigit
      · rfl
  have text : s.chars ++ rest = s.whole ++ (s.point ++ (s.scale ++ rest)) := by
    simp [Spelling.chars]
  rw [text]
  exact readNumber_decimal negative spanned s.whole_ne_nil fraction scaled decimal

/-- Where a number can be read, it begins with a digit. -/
theorem head_of_readNumber {negative : Bool} {j : Json}
    (reads : (readNumber negative cs).found = .ok (j, rest)) :
    ∃ c cs', cs = c :: cs' ∧ c.isDigit = true := by
  rw [readNumber_found] at reads
  cases whole : (spanWhole cs).1 with
  | nil =>
    simp only [whole, List.isEmpty_nil] at reads
    cases reads
  | cons c ds =>
    have digit := isDigit_of_mem_spanWhole cs c (by simp [whole])
    have text := spanWhole_append cs
    rw [whole, List.cons_append] at text
    exact ⟨c, _, text.symm, digit⟩

/-- The magnitude of a double is read as the double without its sign. -/
theorem readNumber_magnitudeChars {x : Float} {b : Binary} (exact : binary? x = some b)
    (positive : b.negative = false) (negative : Bool) (ends : Delimited rest) :
    (readNumber negative (magnitudeChars b ++ rest)).found =
      .ok (.decimal (if negative then -x else x), rest) := by
  obtain ⟨s, chars, decimal, same⟩ := magnitudeChars_spelling exact positive
  rw [← chars, readNumber_spelling s decimal negative ends, signedFloat, same]

theorem decimalText_of_binary? {x : Float} {b : Binary} (exact : binary? x = some b) :
    (decimalText x).toList = (if b.negative then ['-'] else []) ++ magnitudeChars b := by
  have number : ¬x.isNaN = true := Bool.not_eq_true _ ▸ not_isNaN_of_binary? exact
  have bounded : ¬x.isInf = true := Bool.not_eq_true _ ▸ not_isInf_of_binary? exact
  rw [decimalText, if_neg number, if_neg bounded, shortestText, exact, String.toList_ofList]

/-- A double that is no number, or infinite, is read from its word. -/
theorem readValue_unbounded {x : Float} (unbounded : binary? x = none) (rest : List Char) :
    (readValue ((decimalText x).toList ++ rest)).found = .ok (.decimal x, rest) := by
  rw [← ofModel_pack_unpack x]
  unfold binary? at unbounded
  split at unbounded
  any_goals cases unbounded
  · next s unpacked =>
    rw [unpacked]
    cases s with
    | positive => exact readValue_word (c := 'I') rfl (by decide)
    | negative => exact readValue_word (c := '-') rfl (by decide)
  · next unpacked =>
    rw [unpacked]
    exact readValue_word (c := 'N') rfl (by decide)

/-- A double is read as itself. -/
theorem readValue_decimal (x : Float) (ends : Delimited rest) :
    (readValue ((decimalText x).toList ++ rest)).found = .ok (.decimal x, rest) := by
  cases exact : binary? x with
  | none => exact readValue_unbounded exact rest
  | some b =>
    rw [decimalText_of_binary? exact]
    cases sign : b.negative with
    | false =>
      have read := readNumber_magnitudeChars exact sign false ends
      obtain ⟨c, cs, text, digit⟩ := head_of_readNumber read
      rw [text] at read
      rw [if_neg Bool.false_ne_true, List.nil_append, text, readValue_digit digit, read]
      rfl
    | true =>
      have opposite : binary? (-x) = some b.neg := by rw [binary?_neg, exact, Option.map_some]
      have positive : b.neg.negative = false := by simp [Binary.neg, sign]
      have read := readNumber_magnitudeChars opposite positive true ends
      have same : magnitudeChars b.neg = magnitudeChars b := rfl
      obtain ⟨c, cs, text, digit⟩ := head_of_readNumber read
      rw [if_pos rfl, neg_neg_double, text] at read
      rw [if_pos rfl, ← same, List.singleton_append, List.cons_append, text, readValue_minus digit,
        read]

end LineCalc.Json
