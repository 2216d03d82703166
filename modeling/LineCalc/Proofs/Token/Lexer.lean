import LineCalc.Proofs.Decimal.Numeral
import LineCalc.Token.Lexer

/-!
# Steps of the lexer

At the front of a text there is a blank, which is skipped, or a token, which is cut off. What is cut
off as a number has the form of one: a minus sign perhaps, digits with group commas and a point, a
power of ten, and perhaps a percent sign.
-/

namespace LineCalc.Token

open LineCalc.Text LineCalc.Decimal

variable {cur : Cursor} {c : Char} {cs : List Char} {t : Token}

/-! ## Cutting off a token -/

theorem lexFrom_of_isGap (gap : isGap c = true) :
    lexFrom cur (c :: cs) = lexFrom (cur.step c) cs := by
  rw [lexFrom, if_pos gap]

theorem lexFrom_of_lexeme {kind : TokenKind} {more : Nat} (visible : isGap c = false)
    (h : lexeme cur c cs = (kind, more)) :
    lexFrom cur (c :: cs) =
      ⟨kind, String.ofList (c :: cs.take more), cur.pos, cur.line, cur.col⟩ ::
        lexFrom (cur.advance (c :: cs.take more)) (cs.drop more) := by
  rw [lexFrom, if_neg (by simp [visible]), h]

/-- The first token at a place that is no blank, and what is left behind it. -/
theorem lexeme_of_lexFrom {back : List Token} (visible : isGap c = false)
    (h : lexFrom cur (c :: cs) = t :: back) :
    ∃ more, lexeme cur c cs = (t.kind, more) ∧ t.text = String.ofList (c :: cs.take more) ∧
      back = lexFrom (cur.advance (c :: cs.take more)) (cs.drop more) := by
  obtain ⟨⟨kind, more⟩, eq⟩ : ∃ found, lexeme cur c cs = found := ⟨_, rfl⟩
  rw [lexFrom_of_lexeme visible eq] at h
  obtain ⟨rfl, rfl⟩ := List.cons.inj h
  exact ⟨more, eq, rfl, rfl⟩

theorem finish_of_lexFrom {back : List Token} (h : lexFrom cur [] = t :: back) :
    t.kind = .finish := by
  rw [lexFrom] at h
  rw [← (List.cons.inj h).1]

/-- A token other than the mark of the end is a lexeme at some place of the text. -/
theorem lexeme_of_mem (h : t ∈ lexFrom cur cs) (notFinish : t.kind ≠ .finish) :
    ∃ place first rest more, lexeme place first rest = (t.kind, more) ∧
      t.text = String.ofList (first :: rest.take more) := by
  fun_induction lexFrom cur cs with
  | case1 =>
    cases List.mem_singleton.mp h
    exact absurd rfl notFinish
  | case2 cur c cs gap ih => exact ih h
  | case3 cur c cs visible kind more eq text ih =>
    rcases List.mem_cons.mp h with rfl | h
    · exact ⟨cur, c, cs, more, eq, rfl⟩
    · exact ih h

/-! ## Kinds -/

/-- The token is a number or a percentage. -/
def isNumeral (t : Token) : Bool := t.kind == .number || t.kind == .percent

theorem punctuation_not_numeral :
    punctuation c ≠ .number ∧ punctuation c ≠ .percent := by
  unfold punctuation
  split <;> decide

theorem glyphKind_not_numeral : glyphKind c ≠ .number ∧ glyphKind c ≠ .percent := by
  unfold glyphKind
  split <;> decide

theorem keyword?_not_numeral {word : String} :
    keyword? word ≠ some .number ∧ keyword? word ≠ some .percent := by
  unfold keyword?
  split <;> decide

theorem numeral_kind (cs : List Char) :
    (numeral cs).1 = .number ∨ (numeral cs).1 = .percent := by
  unfold numeral
  simp only
  split
  · exact .inr rfl
  · exact .inl rfl

/-- A number is scanned where one starts, or behind a minus sign where an operand may begin. -/
theorem numeral_of_lexeme {kind : TokenKind} {more : Nat} (h : lexeme cur c cs = (kind, more))
    (numeric : kind = .number ∨ kind = .percent) :
    startsNumber (c :: cs) = true ∧ numeral (c :: cs) = (kind, more + 1) ∨
      (c = '-' ∧ startsNumber cs = true ∧ cur.opensOperand = true) ∧
        numeral cs = (kind, more) := by
  unfold lexeme at h
  split at h
  · cases h
    simp at numeric
  split at h
  · cases h
    simp at numeric
  split at h
  · cases h
    simp [glyphKind_not_numeral] at numeric
  split at h
  · next starts =>
    have kind_eq : (numeral (c :: cs)).1 = kind := congrArg Prod.fst h
    have more_eq : (numeral (c :: cs)).2 - 1 = more := congrArg Prod.snd h
    have pos := numeral_pos starts
    exact .inl ⟨starts, Prod.ext kind_eq (by omega)⟩
  split at h
  · next minus =>
    simp only [Bool.and_eq_true, beq_iff_eq] at minus
    exact .inr ⟨⟨minus.1.1, minus.1.2, minus.2⟩, h⟩
  split at h
  · simp only at h
    split at h
    · next found =>
      cases h
      rcases numeric with rfl | rfl
      · exact absurd found keyword?_not_numeral.1
      · exact absurd found keyword?_not_numeral.2
    · cases h
      simp at numeric
  split at h
  · cases h
    simp at numeric
  · cases h
    simp [punctuation_not_numeral] at numeric

/-- Only what starts a number is scanned as one, perhaps after a minus sign. -/
theorem lexeme_numeral {kind : TokenKind} {more : Nat} (h : lexeme cur c cs = (kind, more))
    (numeric : kind = .number ∨ kind = .percent) :
    ∃ sign digits, (sign = [] ∨ sign = ['-']) ∧ startsNumber digits = true ∧
      c :: cs.take more = sign ++ digits.take (numeral digits).2 := by
  rcases numeral_of_lexeme h numeric with ⟨starts, eq⟩ | ⟨⟨rfl, starts, -⟩, eq⟩
  · exact ⟨[], c :: cs, .inl rfl, starts, by rw [eq]; rfl⟩
  · exact ⟨['-'], cs, .inr rfl, starts, by rw [eq]; rfl⟩

/-! ## The form of a numeral -/

/-- Commas and percent signs are no digits. -/
theorem ne_of_isDigit (h : isDigit c = true) : c ≠ ',' ∧ c ≠ '%' := by
  have notDigit : isDigit ',' = false ∧ isDigit '%' = false := by decide
  constructor <;> rintro rfl <;> simp_all

theorem filter_comma_of_digits (digits : ∀ c ∈ cs, isDigit c = true) :
    cs.filter (· != ',') = cs := by
  rw [List.filter_eq_self]
  intro c hc
  simpa using (ne_of_isDigit (digits c hc)).1

theorem takeWhile_ne_nil_of_startsDigit (h : startsDigit cs = true) :
    cs.takeWhile isDigit ≠ [] := by
  cases cs with
  | nil => cases h
  | cons c cs =>
    rw [List.takeWhile_cons_of_pos (show isDigit c = true from h)]
    exact List.cons_ne_nil _ _

/-- The digits and the point of a numeral, without the commas between its groups. -/
def Ungrouped (cs : List Char) : Prop :=
  ∃ whole point, cs.filter (· != ',') = whole ++ point ∧ (∀ c ∈ whole, isDigit c = true) ∧
    IsPoint isDigit point

theorem mantissaLength_row {row : List Char} (digits : ∀ c ∈ row, isDigit c = true)
    (afterPoint : Bool) (cs : List Char) :
    mantissaLength afterPoint (row ++ cs) = row.length + mantissaLength afterPoint cs := by
  induction row with
  | nil => simp
  | cons c row ih =>
    obtain ⟨digit, digits⟩ := List.forall_mem_cons.mp digits
    rw [List.cons_append, mantissaLength, if_pos digit, ih digits, List.length_cons]
    omega

theorem take_mantissaLength_true :
    cs.take (mantissaLength true cs) = cs.takeWhile isDigit := by
  induction cs with
  | nil => rfl
  | cons c cs ih =>
    by_cases digit : isDigit c = true
    · simp [mantissaLength, digit, ih]
    · simp [mantissaLength, digit]

theorem ungrouped_take_mantissaLength (cs : List Char) :
    Ungrouped (cs.take (mantissaLength false cs)) := by
  induction cs with
  | nil => exact ⟨[], [], rfl, List.forall_mem_nil _, .inl rfl⟩
  | cons c cs ih =>
    obtain ⟨whole, point, eq, digits, hpoint⟩ := ih
    rw [mantissaLength]
    split
    · next digit =>
      refine ⟨c :: whole, point, ?_, List.forall_mem_cons.mpr ⟨digit, digits⟩, hpoint⟩
      rw [List.take_succ_cons, List.filter_cons_of_pos (by simpa using (ne_of_isDigit digit).1), eq]
      rfl
    · split
      · next comma =>
        -- A comma between groups leaves no trace.
        simp only [Bool.and_eq_true, beq_iff_eq] at comma
        rw [comma.1.1]
        exact ⟨whole, point, eq, digits, hpoint⟩
      · split
        · next dot =>
          simp only [Bool.and_eq_true, beq_iff_eq] at dot
          refine ⟨[], '.' :: cs.takeWhile isDigit, ?_, List.forall_mem_nil _, .inr ⟨_, rfl, ?_, ?_⟩⟩
          · rw [dot.1.1, List.take_succ_cons, take_mantissaLength_true,
              List.filter_cons_of_pos (by decide),
              filter_comma_of_digits fun _ => List.mem_takeWhile_imp]
            rfl
          · exact takeWhile_ne_nil_of_startsDigit dot.2
          · exact fun _ => List.mem_takeWhile_imp
        · exact ⟨[], [], rfl, List.forall_mem_nil _, .inl rfl⟩

theorem filter_take_mantissaLength_ne_nil (h : startsNumber cs = true) :
    (cs.take (mantissaLength false cs)).filter (· != ',') ≠ [] := by
  cases cs with
  | nil => cases h
  | cons c cs =>
    simp only [startsNumber, Bool.or_eq_true, Bool.and_eq_true, beq_iff_eq] at h
    rw [mantissaLength]
    rcases h with digit | ⟨rfl, after⟩
    · rw [if_pos digit, List.take_succ_cons,
        List.filter_cons_of_pos (by simpa using (ne_of_isDigit digit).1)]
      exact List.cons_ne_nil _ _
    · rw [if_neg (by decide), if_neg (by simp), if_pos (by simp [after]), List.take_succ_cons,
        List.filter_cons_of_pos (by decide)]
      exact List.cons_ne_nil _ _

theorem take_digitsLength : cs.take (digitsLength cs) = cs.takeWhile isDigit := by
  rw [digitsLength, ← List.prefix_iff_eq_take.mp (List.takeWhile_prefix _)]

theorem isPower_take_powerLength (cs : List Char) :
    IsPower isDigit (cs.take (powerLength cs)) := by
  unfold powerLength
  split
  · next e cs =>
    split
    · next letter =>
      simp only [Bool.or_eq_true, beq_iff_eq] at letter
      split
      · next sign rest =>
        split
        · next digit =>
          refine .inr ⟨e, [], (sign :: rest).takeWhile isDigit, ?_, letter, .inl rfl, ?_, ?_⟩
          · rw [List.take_succ_cons, take_digitsLength]
            rfl
          · exact takeWhile_ne_nil_of_startsDigit digit
          · exact fun _ => List.mem_takeWhile_imp
        · split
          · next signed =>
            simp only [Bool.or_eq_true, Bool.and_eq_true, beq_iff_eq] at signed
            refine .inr ⟨e, [sign], rest.takeWhile isDigit, ?_, letter, ?_, ?_, ?_⟩
            · rw [List.take_succ_cons, List.take_succ_cons, take_digitsLength]
              rfl
            · rcases signed.1 with rfl | rfl
              · exact .inr (.inl rfl)
              · exact .inr (.inr rfl)
            · exact takeWhile_ne_nil_of_startsDigit signed.2
            · exact fun _ => List.mem_takeWhile_imp
          · exact .inl rfl
      · exact .inl rfl
    · exact .inl rfl
  · exact .inl rfl

theorem filter_comma_of_isPower (h : IsPower isDigit cs) : cs.filter (· != ',') = cs := by
  have noMark : ',' ∉ marks := by decide
  rw [List.filter_eq_self]
  intro c hc
  rcases h.mem hc with digit | mark
  · simpa using (ne_of_isDigit digit).1
  · simpa using ne_of_mem_of_not_mem mark noMark

/-- The length of a numeral without the percent sign after it. -/
def numberLength (cs : List Char) : Nat :=
  mantissaLength false cs + powerLength (cs.drop (mantissaLength false cs))

theorem take_numeral (cs : List Char) : ∃ percent, (percent = [] ∨ percent = ['%']) ∧
    cs.take (numeral cs).2 = cs.take (numberLength cs) ++ percent := by
  unfold numeral
  simp only
  split
  · next rest sign =>
    refine ⟨['%'], .inr rfl, ?_⟩
    rw [List.take_add, sign]
    rfl
  · exact ⟨[], .inl rfl, (List.append_nil _).symm⟩

/-- Without the commas between its groups a numeral is a number. -/
theorem isNumber_take_numberLength {sign : List Char} (h : startsNumber cs = true)
    (hsign : sign = [] ∨ sign = ['-']) :
    IsNumber isDigit (sign ++ (cs.take (numberLength cs)).filter (· != ',')) := by
  obtain ⟨whole, point, eq, digits, hpoint⟩ := ungrouped_take_mantissaLength cs
  have nonempty := filter_take_mantissaLength_ne_nil h
  have hpower := isPower_take_powerLength (cs.drop (mantissaLength false cs))
  rw [numberLength, List.take_add, List.filter_append, eq, List.append_assoc]
  rw [eq] at nonempty
  rw [filter_comma_of_isPower hpower]
  exact .intro hsign digits hpoint nonempty hpower

theorem percent_notMem_take_numberLength (h : startsNumber cs = true) :
    '%' ∉ cs.take (numberLength cs) := by
  intro mem
  have mem : '%' ∈ (cs.take (numberLength cs)).filter (· != ',') :=
    List.mem_filter.mpr ⟨mem, by decide⟩
  rcases (isNumber_take_numberLength h (.inl rfl)).mem mem with digit | mark
  · exact (ne_of_isDigit digit).2 rfl
  · exact absurd mark (by decide)

end LineCalc.Token
