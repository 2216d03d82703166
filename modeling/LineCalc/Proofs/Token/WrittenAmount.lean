import LineCalc.Proofs.Decimal.Spelling
import LineCalc.Proofs.Token.Written

/-!
# Tokens of written amounts

A number that is written is scanned again wherever none of its parts can go on, and a percentage up
to its sign; a minus sign in front of either belongs to it where an operand may begin. Nothing that
may follow an expression goes on with the number or the word at its end.

Results:
1. `scans_number`, `scans_percent`: a number and a percentage are scanned again.
2. `Follows.endsNumber`, `Follows.endsWord`: they and words end where an expression does.
-/

namespace LineCalc.Token

open LineCalc.Text

variable {opens : Bool} {c d : Char} {cs ds rest : List Char} {kind : TokenKind}

/-! ## Numbers -/

/-- What follows a number does not go on with it. -/
def EndsNumber (rest : List Char) : Prop :=
  ∀ c cs, rest = c :: cs → c = ' ' ∨ c = ')' ∨ c = '%' ∨ c = ',' ∧ startsGroup cs = false

theorem isDigit_of_decimal (h : c.isDigit = true) : isDigit c = true := by
  have ascii : c.toNat < 128 := by
    simp only [Char.isDigit, Bool.and_eq_true, decide_eq_true_eq] at h
    exact Nat.lt_of_le_of_lt h.2 (by decide)
  rw [isDigit, if_pos ascii, h]

theorem EndsNumber.isDigit (h : EndsNumber (c :: cs)) : isDigit c = false := by
  rcases h c cs rfl with rfl | rfl | rfl | ⟨rfl, -⟩ <;> decide

theorem EndsNumber.mantissaLength (h : EndsNumber rest) (afterPoint : Bool) :
    mantissaLength afterPoint rest = 0 := by
  cases rest with
  | nil => rfl
  | cons c cs =>
    have digit := h.isDigit
    rcases h c cs rfl with rfl | rfl | rfl | ⟨rfl, group⟩ <;>
      simp_all [Token.mantissaLength]

theorem EndsNumber.powerLength (h : EndsNumber rest) : powerLength rest = 0 := by
  cases rest with
  | nil => rfl
  | cons c cs => rcases h c cs rfl with rfl | rfl | rfl | ⟨rfl, -⟩ <;> rfl

theorem EndsNumber.takeWhile (h : EndsNumber rest) : rest.takeWhile Text.isDigit = [] := by
  cases rest with
  | nil => rfl
  | cons c cs => rw [List.takeWhile_cons_of_neg (by simp [h.isDigit])]

theorem mantissaLength_digits {row : List Char} (digits : ∀ c ∈ row, c.isDigit = true)
    (afterPoint : Bool) (cs : List Char) :
    mantissaLength afterPoint (row ++ cs) = row.length + mantissaLength afterPoint cs :=
  mantissaLength_row (fun c mem => isDigit_of_decimal (digits c mem)) afterPoint cs

theorem digitsLength_row {row : List Char} (digits : ∀ c ∈ row, c.isDigit = true)
    (ends : EndsNumber rest) : digitsLength (row ++ rest) = row.length := by
  rw [digitsLength, List.takeWhile_append_of_pos fun c mem => isDigit_of_decimal (digits c mem),
    ends.takeWhile, List.append_nil]

variable (s : Decimal.Spelling)

theorem powerLength_scale (ends : EndsNumber rest) :
    powerLength (s.scale ++ rest) = s.scale.length := by
  unfold Decimal.Spelling.scale
  cases s.power with
  | none => exact ends.powerLength
  | some e =>
    obtain ⟨row, eq, nonempty, digits, -⟩ := Decimal.exponentChars_eq e
    obtain ⟨d, row, rfl⟩ := List.exists_cons_of_ne_nil nonempty
    have digit := isDigit_of_decimal (digits d List.mem_cons_self)
    have length := digitsLength_row digits ends
    rw [List.cons_append] at length
    rw [Option.elim_some, eq]
    split <;> simp [powerLength, startsDigit, digit, length, show isDigit '-' = false from rfl,
      show isDigit '+' = false from rfl]

theorem mantissaLength_scale (ends : EndsNumber rest) (afterPoint : Bool) :
    mantissaLength afterPoint (s.scale ++ rest) = 0 := by
  unfold Decimal.Spelling.scale
  cases s.power with
  | none => exact ends.mantissaLength afterPoint
  | some e =>
    obtain ⟨row, eq, -⟩ := Decimal.exponentChars_eq e
    rw [Option.elim_some, eq]
    simp [mantissaLength, show isDigit 'e' = false from rfl]

/-- All of a number that is written is scanned. -/
theorem numberLength_chars (ends : EndsNumber rest) :
    numberLength (s.chars ++ rest) = s.chars.length := by
  have mantissa : mantissaLength false (s.chars ++ rest) = s.whole.length + s.point.length := by
    rw [Decimal.Spelling.chars, List.append_assoc, mantissaLength_digits s.whole_digits,
      List.append_assoc]
    unfold Decimal.Spelling.point
    split
    · rw [List.nil_append, mantissaLength_scale s ends]
      rfl
    · next some =>
      obtain ⟨d, row, eq⟩ := List.exists_cons_of_ne_nil
        (show s.fraction ≠ [] by simpa using some)
      have digit := isDigit_of_decimal (s.fraction_digits d (by simp [eq]))
      have starts : startsDigit (s.fraction ++ (s.scale ++ rest)) = true := by
        rw [eq]
        exact digit
      rw [List.cons_append, mantissaLength, if_neg (by decide), if_neg (by simp),
        if_pos (by simp [starts]), mantissaLength_digits s.fraction_digits,
        mantissaLength_scale s ends]
      rfl
  have behind : (s.chars ++ rest).drop (s.whole.length + s.point.length) = s.scale ++ rest := by
    rw [Decimal.Spelling.chars, List.append_assoc, ← List.drop_drop, List.drop_left,
      List.append_assoc, List.drop_left]
  rw [numberLength, mantissa, behind, powerLength_scale s ends, Decimal.Spelling.chars,
    List.length_append, List.length_append, Nat.add_assoc]

theorem exists_digit_chars : ∃ d ds, s.chars = d :: ds ∧ d.isDigit = true := by
  obtain ⟨d, ds, eq⟩ := List.exists_cons_of_ne_nil s.whole_ne_nil
  exact ⟨d, ds ++ (s.point ++ s.scale), by rw [Decimal.Spelling.chars, eq, List.cons_append],
    s.whole_digits d (by simp [eq])⟩

/-- A numeral is scanned from its first digit on, and with the minus sign in front of it where an
operand may begin. -/
theorem Scans.numeral (opens : Bool) (digit : d.isDigit = true)
    (h : numeral (d :: ds ++ rest) = (kind, (d :: ds).length)) :
    Scans opens (d :: ds) rest [(kind, String.ofList (d :: ds))] ∧
      Scans true ('-' :: d :: ds) rest [(kind, String.ofList ('-' :: d :: ds))] := by
  have scanned := isDigit_of_decimal digit
  have ne {e : Char} (other : e.isDigit = false) : d ≠ e := by
    rintro rfl
    rw [digit] at other
    cases other
  have noGlyph : isGlyph d = false := by
    have letter : d.isAlphanum = true := by simp [Char.isAlphanum, digit]
    simp [isGlyph, letter]
  have starts : startsNumber (d :: ds ++ rest) = true := by simp [startsNumber, scanned]
  constructor
  · refine .lexeme ?_ fun cur _ => ?_
    · simp [isGap, ne]
    · rw [List.cons_append] at h starts
      rw [Token.lexeme, if_neg (by simp [ne]), if_neg (by simp [ne]), if_neg (by simp [noGlyph]),
        if_pos starts, h]
      rfl
  · refine .lexeme (by decide) fun cur opening => ?_
    have noGlyph : isGlyph '-' = false := by decide +kernel
    have noStart : startsNumber ('-' :: (d :: ds ++ rest)) = false := by
      simp [startsNumber, show isDigit '-' = false from rfl]
    rw [List.cons_append] at h starts noStart
    rw [List.cons_append, Token.lexeme, if_neg (by decide), if_neg (by simp),
      if_neg (by simp [noGlyph]), if_neg (by simp [noStart]), if_pos (by simp [starts, opening]), h]

/-- A number is scanned where it ends. -/
theorem scans_number (opens : Bool) (ends : EndsNumber rest) (noPercent : rest.head? ≠ some '%') :
    Scans opens s.chars rest [(.number, String.ofList s.chars)] ∧
      Scans true ('-' :: s.chars) rest [(.number, String.ofList ('-' :: s.chars))] := by
  have h : numeral (s.chars ++ rest) = (.number, s.chars.length) := by
    rw [numeral_eq, numberLength_chars s ends, List.drop_left, if_neg noPercent]
  obtain ⟨d, ds, eq, digit⟩ := exists_digit_chars s
  rw [eq] at h ⊢
  exact Scans.numeral opens digit h

/-- A percentage is scanned up to its sign. -/
theorem scans_percent (opens : Bool) :
    Scans opens (s.chars ++ ['%']) rest [(.percent, String.ofList (s.chars ++ ['%']))] ∧
      Scans true ('-' :: (s.chars ++ ['%'])) rest
        [(.percent, String.ofList ('-' :: (s.chars ++ ['%'])))] := by
  have ends : EndsNumber ('%' :: rest) := by
    intro c cs eq
    cases eq
    exact .inr (.inr (.inl rfl))
  have h : numeral (s.chars ++ ['%'] ++ rest) = (.percent, (s.chars ++ ['%']).length) := by
    rw [List.append_assoc, List.singleton_append, numeral_eq, numberLength_chars s ends,
      List.drop_left, List.head?_cons, if_pos rfl, List.length_append, List.length_singleton]
  obtain ⟨d, ds, eq, digit⟩ := exists_digit_chars s
  rw [eq, List.cons_append] at h ⊢
  exact Scans.numeral opens digit h

/-! ## What follows an expression -/

/-- What may follow an expression that is written: nothing, a closing parenthesis, a comma and a
blank, or a blank and either a sign or `in`. -/
inductive Follows : List Char → Prop
  | nil : Follows []
  | closing (cs : List Char) : Follows (')' :: cs)
  | comma (cs : List Char) : Follows (',' :: ' ' :: cs)
  | sign {c : Char} (cs : List Char) : c ∈ ['+', '-', '*', '/', '^', '=', '#'] →
      Follows (' ' :: c :: cs)
  | inWord (cs : List Char) : Follows (' ' :: 'i' :: 'n' :: ' ' :: cs)

theorem Follows.endsNumber (h : Follows rest) : EndsNumber rest ∧ rest.head? ≠ some '%' := by
  cases h with
  | nil => exact ⟨nofun, nofun⟩
  | closing cs => exact ⟨fun c _ eq => by cases eq; exact .inr (.inl rfl), by simp⟩
  | comma cs =>
    refine ⟨fun c _ eq => ?_, by simp⟩
    cases eq
    refine .inr (.inr (.inr ⟨rfl, ?_⟩))
    match cs with
    | [] | [_] | _ :: _ :: _ => simp [startsGroup, show isDigit ' ' = false from rfl]
  | sign cs _ | inWord cs => exact ⟨fun c _ eq => by cases eq; exact .inl rfl, by simp⟩

/-- No phrase goes on where no blank is. -/
theorem endsWord_of_visible (word : leadingWord rest = [])
    (visible : (rest.head?.any fun c => c == ' ' || c == '\t') = false) : EndsWord rest := by
  refine ⟨word, fun first words mem => ?_⟩
  obtain ⟨-, nonempty, -⟩ := of_mem_continuations first words mem
  obtain ⟨expected, more, rfl⟩ := List.exists_cons_of_ne_nil nonempty
  rw [wordsLength?, if_neg (by simp [visible])]

/-- No phrase goes on behind a blank with what is no further word of any. -/
theorem endsWord_of_blank (word : List Char) {tail : List Char}
    (leading : leadingWord (word ++ tail) = word)
    (visible : (word ++ tail).takeWhile isGap = [])
    (other : lower (String.ofList word) = "" ∨ lower (String.ofList word) = "in") :
    EndsWord (' ' :: (word ++ tail)) := by
  have notWord : ¬ continuesWord ' ' = true := by decide +kernel
  refine ⟨List.takeWhile_cons_of_neg notWord, fun first words mem => ?_⟩
  obtain ⟨-, nonempty, words_ne⟩ := of_mem_continuations first words mem
  obtain ⟨expected, more, rfl⟩ := List.exists_cons_of_ne_nil nonempty
  have ne := words_ne expected List.mem_cons_self
  have gaps : ([' '] ++ (word ++ tail)).takeWhile isGap = [' '] := by
    rw [List.singleton_append, List.takeWhile_cons_of_pos rfl, visible]
  have next := wordsLength?_append expected more rfl gaps leading
  rw [List.singleton_append] at next
  rw [next, if_neg]
  rw [beq_iff_eq]
  rcases other with other | other <;> rw [other]
  · exact ne.1.symm
  · exact ne.2.symm

theorem endsWord_opening (cs : List Char) : EndsWord ('(' :: cs) :=
  endsWord_of_visible (List.takeWhile_cons_of_neg (by decide +kernel)) rfl

theorem Follows.endsWord (h : Follows rest) : EndsWord rest := by
  cases h with
  | nil => exact endsWord_of_visible rfl rfl
  | closing cs => exact endsWord_of_visible (List.takeWhile_cons_of_neg (by decide +kernel)) rfl
  | comma cs => exact endsWord_of_visible (List.takeWhile_cons_of_neg (by decide +kernel)) rfl
  | @sign c cs mem =>
    have others : ∀ c ∈ ['+', '-', '*', '/', '^', '=', '#'],
        continuesWord c = false ∧ isGap c = false := by
      intro c mem
      fin_cases mem <;> decide +kernel
    obtain ⟨noWord, visible⟩ := others c mem
    exact endsWord_of_blank [] (List.takeWhile_cons_of_neg (by simp [noWord]))
      (List.takeWhile_cons_of_neg (by simp [visible])) (.inl rfl)
  | inWord cs =>
    have letters : ∀ c ∈ ['i', 'n'], continuesWord c = true := by
      intro c mem
      fin_cases mem <;> decide +kernel
    exact endsWord_of_blank ['i', 'n']
      (leadingWord_append letters (List.takeWhile_cons_of_neg (by decide +kernel)))
      (List.takeWhile_cons_of_neg (by decide)) (.inr (by decide +kernel))

end LineCalc.Token
