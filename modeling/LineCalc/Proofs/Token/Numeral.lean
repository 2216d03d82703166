import LineCalc.Proofs.Catalog.Symbols
import LineCalc.Proofs.Token.Minus

/-!
# The longest numeral

A number is digits with commas between groups of three, a point and more digits perhaps, and a power
of ten perhaps; a percent sign behind it makes it a percentage. Where a number begins, all is
scanned as one that can be: of the pieces of the text there that have this form it is the longest.
So a comma before one, two or four digits is left, and so is a point without a digit behind it, and
an `e` that begins a word.

Results:
1. `magnitude_scanned`: what is scanned has the form of a number.
2. `Magnitude.length`: a piece that has it is scanned, with all that makes a longer one.
3. `longestNumeral_scanned`: so what is scanned is the longest piece that has it.
4. `longest_numeral`: what this says of the tokens of a text.
-/

namespace LineCalc.Token

open LineCalc.Text LineCalc.Decimal

variable {cur : Cursor} {c : Char} {cs ds piece rest whole point power : List Char}
  {kind : TokenKind} {n : Nat}

/-! ## The form of a number -/

/-- In front of `rest`, the characters are digits with commas among them. Behind each comma come
exactly three digits. -/
inductive Grouped : List Char → List Char → Prop
  | done {rest : List Char} : Grouped [] rest
  | digit {d : Char} {cs rest : List Char} :
      isDigit d = true → Grouped cs rest → Grouped (d :: cs) rest
  | comma {cs rest : List Char} :
      digitsLength (cs ++ rest) = 3 → Grouped cs rest → Grouped (',' :: cs) rest

/-- In front of `rest`, the characters are a number without sign: digits with commas, a point and
digits perhaps, and a power of ten perhaps. -/
inductive Magnitude : List Char → List Char → Prop
  | intro {whole point power rest : List Char} :
      Grouped whole (point ++ (power ++ rest)) → IsPoint isDigit point → whole ++ point ≠ [] →
      IsPower isDigit power → Magnitude (whole ++ (point ++ power)) rest

/-- In front of `rest`, the characters are a number, or one with a percent sign behind it. -/
inductive NumeralForm : TokenKind → List Char → List Char → Prop
  | number {sign piece rest : List Char} :
      sign = [] ∨ sign = ['-'] → Magnitude piece rest → NumeralForm .number (sign ++ piece) rest
  | percent {sign piece rest : List Char} :
      sign = [] ∨ sign = ['-'] → Magnitude piece ('%' :: rest) →
      NumeralForm .percent (sign ++ (piece ++ ['%'])) rest

/-- Of all pieces of a text from a place on that are numbers or percentages, this is the longest. -/
structure LongestNumeral (kind : TokenKind) (piece rest : List Char) : Prop where
  form : NumeralForm kind piece rest
  longest : ∀ kind' piece' rest', piece' ++ rest' = piece ++ rest →
    NumeralForm kind' piece' rest' → piece'.length ≤ piece.length

/-! ## What is scanned -/

theorem digitsLength_cons (c : Char) (cs : List Char) :
    digitsLength (c :: cs) = if isDigit c then digitsLength cs + 1 else 0 := by
  rw [digitsLength, List.takeWhile_cons]
  split <;> rfl

theorem startsDigit_eq_false_iff : startsDigit cs = false ↔ digitsLength cs = 0 := by
  cases cs with
  | nil => exact iff_of_true rfl rfl
  | cons c cs =>
    rw [startsDigit, digitsLength_cons]
    cases isDigit c <;> simp

theorem startsGroup_iff : startsGroup cs = true ↔ digitsLength cs = 3 := by
  match cs with
  | [] | [_] | [_, _] =>
    exact iff_of_false nofun fun three => absurd (three.ge.trans (digitsLength_le _)) (by simp)
  | a :: b :: c :: rest =>
    simp only [startsGroup, digitsLength_cons]
    cases isDigit a <;> cases isDigit b <;> cases isDigit c <;> simp [startsDigit_eq_false_iff]

/-- The digits with their commas and the point are scanned as far as they go. -/
theorem exists_mantissa (cs : List Char) : ∃ whole point,
    cs.take (mantissaLength false cs) = whole ++ point ∧
    Grouped whole (point ++ cs.drop (mantissaLength false cs)) ∧ IsPoint isDigit point := by
  induction cs with
  | nil => exact ⟨[], [], rfl, .done, .inl rfl⟩
  | cons c cs ih =>
    obtain ⟨whole, point, taken, grouped, hpoint⟩ := ih
    have behind : whole ++ (point ++ cs.drop (mantissaLength false cs)) = cs := by
      rw [← List.append_assoc, ← taken, List.take_append_drop]
    rw [mantissaLength]
    split
    · next digit => exact ⟨c :: whole, point, congrArg (c :: ·) taken, .digit digit grouped, hpoint⟩
    split
    · next comma =>
      simp only [Bool.and_eq_true, beq_iff_eq] at comma
      rw [comma.1.1]
      refine ⟨',' :: whole, point, congrArg (',' :: ·) taken, .comma ?_ grouped, hpoint⟩
      exact (congrArg digitsLength behind).trans (startsGroup_iff.mp comma.2)
    split
    · next dot =>
      simp only [Bool.and_eq_true, beq_iff_eq] at dot
      rw [dot.1.1, List.take_succ_cons, take_mantissaLength_true]
      exact ⟨[], _, rfl, .done, .inr ⟨_, rfl, takeWhile_ne_nil_of_startsDigit dot.2,
        fun _ => List.mem_takeWhile_imp⟩⟩
    · exact ⟨[], [], rfl, .done, .inl rfl⟩

/-- What is scanned as a number has the form of one. -/
theorem magnitude_scanned (starts : startsNumber cs = true) :
    Magnitude (cs.take (numberLength cs)) (cs.drop (numberLength cs)) := by
  obtain ⟨whole, point, taken, grouped, hpoint⟩ := exists_mantissa cs
  have nonempty : whole ++ point ≠ [] := by
    intro none
    have some := filter_take_mantissaLength_ne_nil starts
    rw [taken, none] at some
    exact some rfl
  have power := isPower_take_powerLength (cs.drop (mantissaLength false cs))
  rw [numberLength, List.take_add, taken, ← List.drop_drop, List.append_assoc]
  refine .intro ?_ hpoint nonempty power
  rwa [List.take_append_drop]

/-! ## Nothing longer -/

theorem Grouped.length (h : Grouped whole rest) :
    mantissaLength false (whole ++ rest) = whole.length + mantissaLength false rest := by
  induction h with
  | done => simp
  | @digit d cs rest digit _ ih =>
    rw [List.cons_append, mantissaLength, if_pos digit, ih, List.length_cons]
    omega
  | @comma cs rest three _ ih =>
    rw [List.cons_append, mantissaLength, if_neg (by decide),
      if_pos (by simp [startsGroup_iff.mpr three]), ih, List.length_cons]
    omega

theorem length_of_isPoint (h : IsPoint isDigit point) (rest : List Char) : ∃ afterPoint,
    mantissaLength false (point ++ rest) = point.length + mantissaLength afterPoint rest := by
  rcases h with rfl | ⟨ds, rfl, nonempty, digits⟩
  · exact ⟨false, by simp⟩
  · obtain ⟨d, ds, rfl⟩ := List.exists_cons_of_ne_nil nonempty
    have starts : startsDigit (d :: ds ++ rest) = true := digits d List.mem_cons_self
    refine ⟨true, ?_⟩
    rw [List.cons_append, mantissaLength, if_neg (by decide), if_neg (by simp), starts,
      if_pos (by simp), mantissaLength_row digits]
    simp only [List.length_cons]
    omega

/-- What ends the digits of a number. -/
theorem mantissaLength_of_mem (mem : c ∈ ['e', 'E', '%']) (afterPoint : Bool) (cs : List Char) :
    mantissaLength afterPoint (c :: cs) = 0 := by
  have others : isDigit c = false ∧ c ≠ ',' ∧ c ≠ '.' := by fin_cases mem <;> decide
  obtain ⟨noDigit, noComma, noPoint⟩ := others
  simp [mantissaLength, noDigit, noComma, noPoint]

theorem digitsLength_append (digits : ∀ c ∈ ds, isDigit c = true) (rest : List Char) :
    digitsLength (ds ++ rest) = ds.length + digitsLength rest := by
  rw [digitsLength, List.takeWhile_append_of_pos digits, List.length_append, digitsLength]

theorem length_of_isPower (h : IsPower isDigit power) (some : power ≠ []) (rest : List Char) :
    (∃ e cs, power = e :: cs ∧ e ∈ ['e', 'E', '%']) ∧
      powerLength (power ++ rest) = power.length + digitsLength rest := by
  rcases h with rfl | ⟨e, sign, ds, rfl, letter, hsign, nonempty, digits⟩
  · exact absurd rfl some
  obtain ⟨d, ds, rfl⟩ := List.exists_cons_of_ne_nil nonempty
  have digit := digits d List.mem_cons_self
  have count := digitsLength_append digits rest
  rw [List.cons_append] at count
  have starts : startsDigit (d :: (ds ++ rest)) = true := digit
  refine ⟨⟨e, _, rfl, by rcases letter with rfl | rfl <;> decide⟩, ?_⟩
  have noDigit : isDigit '+' = false ∧ isDigit '-' = false := by decide
  rcases hsign with rfl | rfl | rfl <;>
    simp [powerLength, letter, digit, starts, count, noDigit] <;> omega

/-- A number is scanned, with all that makes a longer one; a percent sign does not. -/
theorem Magnitude.length (h : Magnitude piece rest) : ∃ more,
    numberLength (piece ++ rest) = piece.length + more ∧ (rest.head? = some '%' → more = 0) := by
  obtain ⟨grouped, hpoint, -, hpower⟩ := h
  rename_i whole point power
  obtain ⟨afterPoint, pointLength⟩ := length_of_isPoint hpoint (power ++ rest)
  have mantissa : mantissaLength false (whole ++ (point ++ power) ++ rest) =
      (whole ++ point).length + mantissaLength afterPoint (power ++ rest) := by
    rw [List.append_assoc, List.append_assoc, grouped.length, pointLength, List.length_append,
      Nat.add_assoc]
  have behind :
      (whole ++ (point ++ power) ++ rest).drop (whole ++ point).length = power ++ rest := by
    rw [← List.append_assoc, List.append_assoc _ power, List.drop_left]
  have count : (whole ++ (point ++ power)).length = (whole ++ point).length + power.length := by
    rw [← List.append_assoc, List.length_append]
  rw [numberLength, mantissa, ← List.drop_drop, behind, count]
  by_cases none : power = []
  · rw [none, List.nil_append, List.length_nil]
    refine ⟨_, Nat.add_assoc .., fun percent => ?_⟩
    obtain ⟨tail, rfl⟩ := List.head?_eq_some_iff.mp percent
    rw [mantissaLength_of_mem (by decide)]
    rfl
  · obtain ⟨⟨e, cs, rfl, letter⟩, length⟩ := length_of_isPower hpower none rest
    rw [List.cons_append, mantissaLength_of_mem letter, ← List.cons_append, Nat.add_zero,
      List.drop_zero, length]
    refine ⟨_, (Nat.add_assoc ..).symm, fun percent => ?_⟩
    obtain ⟨tail, rfl⟩ := List.head?_eq_some_iff.mp percent
    rfl

/-- A number begins with a digit, a comma or a point. -/
theorem Magnitude.head (h : Magnitude piece rest) : ∃ c cs, piece = c :: cs ∧ c ≠ '-' := by
  obtain ⟨grouped, hpoint, nonempty, -⟩ := h
  cases grouped with
  | @digit d cs _ digit =>
    refine ⟨d, _, rfl, ?_⟩
    rintro rfl
    cases digit
  | comma => exact ⟨',', _, rfl, by decide⟩
  | done =>
    rcases hpoint with rfl | ⟨ds, rfl, -⟩
    · exact absurd rfl nonempty
    · exact ⟨'.', _, rfl, by decide⟩

theorem Magnitude.le_numeral (h : Magnitude piece rest) :
    piece.length ≤ (numeral (piece ++ rest)).2 := by
  obtain ⟨more, length, -⟩ := h.length
  rw [numeral_eq, length]
  split
  · exact Nat.le_succ_of_le (Nat.le_add_right ..)
  · exact Nat.le_add_right ..

/-- A percent sign behind a number is scanned as well. -/
theorem Magnitude.lt_numeral (h : Magnitude piece ('%' :: rest)) :
    piece.length + 1 ≤ (numeral (piece ++ '%' :: rest)).2 := by
  obtain ⟨more, length, last⟩ := h.length
  rw [last rfl, Nat.add_zero] at length
  rw [numeral_eq, length, List.drop_left]
  exact le_rfl

/-- What is scanned is a number or a percentage, as its kind tells. -/
theorem numeralForm_scanned {sign : List Char} (h : sign = [] ∨ sign = ['-'])
    (starts : startsNumber cs = true) : NumeralForm (numeral cs).1 (sign ++ cs.take (numeral cs).2)
      (cs.drop (numeral cs).2) := by
  have magnitude := magnitude_scanned starts
  rw [numeral_eq]
  split
  · next percent =>
    obtain ⟨rest, behind⟩ := List.head?_eq_some_iff.mp percent
    rw [List.take_add, ← List.drop_drop, behind]
    rw [behind] at magnitude
    exact .percent h magnitude
  · exact .number h magnitude

/-- Where a number begins, behind a minus sign or without, each number has just this sign. -/
theorem Magnitude.sign {sign sign' tail : List Char} (h : Magnitude piece rest)
    (hsign : sign = [] ∨ sign = ['-']) (hsign' : sign' = [] ∨ sign' = ['-'])
    (starts : startsNumber cs = true) (same : sign' ++ (piece ++ tail) = sign ++ cs) :
    sign' = sign ∧ piece ++ tail = cs := by
  obtain ⟨c, ds, rfl, noMinus⟩ := h.head
  rcases hsign with rfl | rfl <;> rcases hsign' with rfl | rfl
  · exact ⟨rfl, same⟩
  · rw [← List.nil_append cs, ← same] at starts
    cases starts
  · exact absurd (List.cons.inj same).1 noMinus
  · exact ⟨rfl, (List.cons.inj same).2⟩

/-- Nothing longer than what is scanned has the form of a number or a percentage. -/
theorem NumeralForm.length_le {sign : List Char} (h : NumeralForm kind piece rest)
    (hsign : sign = [] ∨ sign = ['-']) (starts : startsNumber cs = true)
    (same : piece ++ rest = sign ++ cs) : piece.length ≤ sign.length + (numeral cs).2 := by
  cases h with
  | @number sign' piece _ hsign' magnitude =>
    rw [List.append_assoc] at same
    obtain ⟨rfl, rfl⟩ := magnitude.sign hsign hsign' starts same
    rw [List.length_append]
    exact Nat.add_le_add_left magnitude.le_numeral _
  | @percent sign' piece _ hsign' magnitude =>
    rw [List.append_assoc, List.append_assoc] at same
    obtain ⟨rfl, rfl⟩ := magnitude.sign hsign hsign' starts same
    rw [List.length_append, List.length_append]
    exact Nat.add_le_add_left magnitude.lt_numeral _

/-- What is scanned is the longest number or percentage at its place. -/
theorem longestNumeral_scanned {sign : List Char} (hsign : sign = [] ∨ sign = ['-'])
    (starts : startsNumber cs = true) : LongestNumeral (numeral cs).1
      (sign ++ cs.take (numeral cs).2) (cs.drop (numeral cs).2) := by
  refine ⟨numeralForm_scanned hsign starts, fun kind' piece' rest' same form => ?_⟩
  rw [List.append_assoc, List.take_append_drop] at same
  rw [List.length_append, List.length_take, Nat.min_eq_left (numeral_le cs)]
  exact form.length_le hsign starts same

/-! ## The numbers of a text -/

theorem no_glyph_of_isDigit (digit : isDigit c = true) : isGlyph c = false := by
  refine Bool.eq_false_iff.mpr fun glyph => ?_
  rw [isGlyph, Bool.and_eq_true] at glyph
  obtain ⟨d, symbol⟩ := Option.isSome_iff_exists.mp glyph.2
  have mem := Denomination.mem_symbols_of_ofSymbol? symbol
  have plain := (Denomination.symbols_plain mem (c := c) (by simp)).1
  rw [digit] at plain
  cases plain

/-- Where a digit stands, or a point and a digit, a number is scanned. -/
theorem lexeme_of_startsNumber (starts : startsNumber (c :: cs) = true) :
    lexeme cur c cs = ((numeral (c :: cs)).1, (numeral (c :: cs)).2 - 1) := by
  have others : c ∉ ['\n', '#', '/'] ∧ isGlyph c = false := by
    rw [startsNumber, Bool.or_eq_true, Bool.and_eq_true, beq_iff_eq] at starts
    rcases starts with digit | ⟨rfl, -⟩
    · refine ⟨fun mem => ?_, no_glyph_of_isDigit digit⟩
      fin_cases mem <;> cases digit
    · decide +kernel
  obtain ⟨noSign, noGlyph⟩ := others
  simp only [List.mem_cons, List.not_mem_nil, or_false, not_or] at noSign
  rw [lexeme, if_neg (by simp [noSign]), if_neg (by simp [noSign]), if_neg (by simp [noGlyph]),
    if_pos starts]

/-- A token of a text is a number or a percentage exactly where a digit stands, or a point and a
digit, and behind a minus sign if an operand may begin there. Then it is the longest one at its
place, of this kind, and the tokens after it are scanned from where it ends. -/
theorem longest_numeral {text : String} {front back : List Token} {t : Token}
    (h : ofText text = front ++ t :: back) :
    let here := text.toList.drop t.pos
    (isNumeral t = true ↔ startsNumber here = true ∨
      here.head? = some '-' ∧ startsNumber here.tail = true ∧ opensBehindTokens front = true) ∧
    (isNumeral t = true → ∃ piece rest, here = piece ++ rest ∧ t.text = String.ofList piece ∧
      LongestNumeral t.kind piece rest ∧
      back = lexFrom ((placeOf text t).advance piece) rest) := by
  intro here
  obtain ⟨tokens, visible, -⟩ := ofText_split h
  have opens : here = '-' :: here.tail → (placeOf text t).opensOperand = opensBehindTokens front :=
    opensOperand_placeOf h
  rw [isNumeral_iff]
  generalize placeOf text t = cur at *
  change lexFrom cur here = t :: back at tokens
  change ∀ c ∈ here.head?, isGap c = false at visible
  change here = _ → _ at opens
  match here with
  | [] =>
    rw [finish_of_lexFrom tokens]
    exact ⟨iff_of_false nofun nofun, nofun⟩
  | c :: cs =>
    obtain ⟨more, cut, literal, behind⟩ := lexeme_of_lexFrom (visible c rfl) tokens
    refine ⟨⟨fun numeric => ?_, ?_⟩, fun numeric => ?_⟩
    · refine (numeral_of_lexeme cut numeric).imp And.left ?_
      rintro ⟨⟨rfl, starts, operand⟩, -⟩
      exact ⟨rfl, starts, (opens rfl).symm.trans operand⟩
    · rintro (starts | ⟨⟨⟩, starts, operand⟩)
      · rw [lexeme_of_startsNumber starts] at cut
        have kind : _ = t.kind := congrArg Prod.fst cut
        exact kind ▸ numeral_kind _
      · rw [lexeme_minus, if_pos (by rw [opens rfl]; simp_all)] at cut
        have kind : _ = t.kind := congrArg Prod.fst cut
        exact kind ▸ numeral_kind _
    · rcases numeral_of_lexeme cut numeric with ⟨starts, scanned⟩ | ⟨⟨rfl, starts, -⟩, scanned⟩
      · have longest := longestNumeral_scanned (.inl rfl) starts
        rw [scanned] at longest
        exact ⟨_, _, (List.take_append_drop (more + 1) _).symm, literal, longest, behind⟩
      · have longest := longestNumeral_scanned (.inr rfl) starts
        rw [scanned] at longest
        exact ⟨_, _, congrArg _ (List.take_append_drop more _).symm, literal, longest, behind⟩

/-- Neither the comma before two digits nor the `e` without any is of the number. -/
theorem longest_numeral_exGroups :
    let first : Token := ⟨.number, "1,234", 0, 1, 1⟩
    let others : List Token := [⟨.comma, ",", 5, 1, 6⟩, ⟨.number, "56", 6, 1, 7⟩,
      ⟨.word, "e", 8, 1, 9⟩, ⟨.finish, "", 9, 1, 10⟩]
    ofText "1,234,56e" = [] ++ first :: others ∧ isNumeral first = true ∧
      ∃ piece rest, "1,234,56e".toList.drop first.pos = piece ++ rest ∧
        first.text = String.ofList piece ∧ LongestNumeral .number piece rest ∧
        others = lexFrom ((placeOf "1,234,56e" first).advance piece) rest := by
  intro first others
  have split : ofText "1,234,56e" = [] ++ first :: others := by
    have amount : lexeme {} '1' ",234,56e".toList = (.number, 4) := by decide +kernel
    have comma : lexeme ⟨5, 1, 6, some '4'⟩ ',' "56e".toList = (.comma, 0) := by decide +kernel
    have other : lexeme ⟨6, 1, 7, some ','⟩ '5' "6e".toList = (.number, 1) := by decide +kernel
    have word : lexeme ⟨8, 1, 9, some '6'⟩ 'e' [] = (.word, 0) := by decide +kernel
    calc lexFrom {} "1,234,56e".toList
      _ = first :: lexFrom ⟨5, 1, 6, some '4'⟩ ",56e".toList := lexFrom_of_lexeme rfl amount
      _ = first :: ⟨.comma, ",", 5, 1, 6⟩ :: lexFrom ⟨6, 1, 7, some ','⟩ "56e".toList :=
        congrArg _ (lexFrom_of_lexeme rfl comma)
      _ = first :: ⟨.comma, ",", 5, 1, 6⟩ :: ⟨.number, "56", 6, 1, 7⟩ ::
          lexFrom ⟨8, 1, 9, some '6'⟩ "e".toList :=
        congrArg (fun ts => first :: _ :: ts) (lexFrom_of_lexeme rfl other)
      _ = first :: ⟨.comma, ",", 5, 1, 6⟩ :: ⟨.number, "56", 6, 1, 7⟩ :: ⟨.word, "e", 8, 1, 9⟩ ::
          lexFrom ⟨9, 1, 10, some 'e'⟩ [] :=
        congrArg (fun ts => first :: _ :: _ :: ts) (lexFrom_of_lexeme rfl word)
      _ = first :: others := by rw [lexFrom]
  exact ⟨split, rfl, (longest_numeral split).2 rfl⟩

end LineCalc.Token
