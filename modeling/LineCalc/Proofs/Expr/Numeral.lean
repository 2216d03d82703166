import LineCalc.Expr.Parser
import LineCalc.Proofs.Token.Lexer

/-!
# Numerals as amounts

A number is scanned by digits of any kind but read by decimal digits. So a numeral that the lexer
has found names an amount unless one of its digits is not decimal, such as the superscript in
`2²`.
-/

namespace LineCalc

open LineCalc.Text LineCalc.Decimal

/-- The token is a numeral with a digit that is not decimal. -/
def Token.hasLoneDigit (t : Token) : Bool :=
  t.isNumeral && t.text.toList.any fun c => isDigit c && (decimalValue? c).isNone

/-- The fault of a numeral that names no amount. -/
def Token.fault (t : Token) : Fault := .notANumeral (String.ofList (Parser.valueChars t.text))

namespace Parser

variable {cs : List Char} {c : Char} {s : String} {t : Token}

theorem mem_of_valueChars (mem : c ∈ valueChars s) : c ∈ s.toList := by
  rw [valueChars, List.mem_reverse] at mem
  exact (List.mem_filter.mp (List.mem_reverse.mp ((List.dropWhile_sublist _).subset mem))).1

theorem mem_valueChars_of_isDigit (mem : c ∈ s.toList) (digit : isDigit c = true) :
    c ∈ valueChars s := by
  obtain ⟨notComma, notPercent⟩ := Token.ne_of_isDigit digit
  have kept : c ∈ s.toList.filter (· != ',') := List.mem_filter.mpr ⟨mem, by simpa using notComma⟩
  rw [valueChars, List.mem_reverse]
  exact mem_dropWhile (List.mem_reverse.mpr kept) (by simpa using notPercent)

theorem valueChars_ofList {percent : List Char} (noPercent : '%' ∉ cs)
    (h : percent = [] ∨ percent = ['%']) :
    valueChars (String.ofList (cs ++ percent)) = cs.filter (· != ',') := by
  have kept : ((cs.filter (· != ',')).reverse).dropWhile (· == '%') =
      (cs.filter (· != ',')).reverse := by
    refine dropWhile_eq_self fun c hc => ?_
    have mem : c ∈ cs := (List.mem_filter.mp (List.mem_reverse.mp hc)).1
    simpa using ne_of_mem_of_not_mem mem noPercent
  rw [valueChars, String.toList_ofList, List.filter_append, List.reverse_append]
  rcases h with rfl | rfl
  · exact (congrArg List.reverse kept).trans (List.reverse_reverse _)
  · exact (congrArg List.reverse kept).trans (List.reverse_reverse _)

/-- Apart from group commas and a percent sign, a numeral of a text is a number. -/
theorem isNumber_valueChars {text : String} (h : t ∈ Token.ofText text)
    (numeral : t.isNumeral = true) : IsNumber isDigit (valueChars t.text) := by
  simp only [Token.isNumeral, Bool.or_eq_true, beq_iff_eq] at numeral
  have notFinish : t.kind ≠ .finish := by
    rcases numeral with numeral | numeral <;> simp [numeral]
  obtain ⟨place, first, rest, more, found, text⟩ := Token.lexeme_of_mem h notFinish
  obtain ⟨sign, digits, hsign, starts, eq⟩ := Token.lexeme_numeral found numeral
  obtain ⟨percent, hpercent, length⟩ := Token.take_numeral digits
  have noPercent : '%' ∉ sign ++ digits.take (Token.numberLength digits) := by
    rw [List.mem_append, not_or]
    refine ⟨?_, Token.percent_notMem_take_numberLength starts⟩
    rcases hsign with rfl | rfl <;> decide
  have unsigned : sign.filter (· != ',') = sign := by
    rcases hsign with rfl | rfl <;> rfl
  rw [text, eq, length, ← List.append_assoc, valueChars_ofList noPercent hpercent,
    List.filter_append, unsigned]
  exact Token.isNumber_take_numberLength starts hsign

/-- A numeral of a text names an amount if and only if all its digits are decimal. -/
theorem floatOf?_valueChars_eq_none_iff {text : String} (h : t ∈ Token.ofText text)
    (numeral : t.isNumeral = true) :
    floatOf? (valueChars t.text) = none ↔ t.hasLoneDigit = true := by
  simp only [Token.hasLoneDigit, numeral, Bool.true_and, List.any_eq_true, Bool.and_eq_true,
    Option.isNone_iff_eq_none]
  constructor
  · intro none
    -- If all digits were decimal, the numeral would have the form of a number and so be read.
    by_contra decimal
    simp only [not_exists, not_and] at decimal
    have some := floatOf?_isSome (isNumber_valueChars h numeral) fun c hc digit =>
      Option.isSome_iff_ne_none.mpr (decimal c (mem_of_valueChars hc) digit)
    rw [none] at some
    cases some
  · rintro ⟨c, hc, digit, lone⟩
    rw [Option.eq_none_iff_forall_not_mem]
    intro x hx
    have decimal := decimalValue?_isSome_of_floatOf? hx (mem_valueChars_of_isDigit hc digit) digit
    rw [lone] at decimal
    cases decimal

end Parser

end LineCalc
