import LineCalc.Expr.Printer
import LineCalc.Proofs.Decimal.Hundredths
import LineCalc.Proofs.Decimal.Spelling
import LineCalc.Proofs.Expr.Numeral

/-!
# Amounts as they are written

A whole amount is written by its digits alone, any other by the shortest decimal. Either is a
number that is read as the amount, apart from the sign. The negative zero is written without its
sign, and an infinite amount has no text.

Results:
1. `amountText_spelling`: what an amount is written as.
2. `amountOf_spelling`: what is read from it, also in front of a percent sign.
-/

namespace LineCalc

open LineCalc.Decimal LineCalc.Parser

variable {x : Float} {b : Binary}

namespace Decimal

/-- The double has a sign and a magnitude that are both written: it is finite and not the negative
zero. -/
def isWritable (x : Float) : Bool := (binary? x).any fun b => !b.negative || b.mantissa != 0

/-- The double that is read from a number. -/
def Spelling.amount (s : Spelling) : Float := nearestFloat s.digits s.exponent

/-- What can be written is a magnitude or the opposite of one that is not zero. -/
theorem exists_magnitude (h : isWritable x = true) : ∃ y b, binary? y = some b ∧
    b.negative = false ∧ (x = y ∨ x = -y ∧ b.mantissa ≠ 0) := by
  rw [isWritable] at h
  cases exact : binary? x with
  | none =>
    rw [exact] at h
    cases h
  | some b =>
    cases sign : b.negative with
    | false => exact ⟨x, b, exact, sign, .inl rfl⟩
    | true =>
      refine ⟨-x, b.neg, by rw [binary?_neg, exact]; rfl, by simp [Binary.neg, sign], .inr ?_⟩
      exact ⟨(neg_neg_double x).symm, by simpa [exact, sign, Binary.neg] using h⟩

theorem magnitudeChars_neg (b : Binary) : magnitudeChars b.neg = magnitudeChars b := rfl

theorem isWhole_neg (b : Binary) : b.neg.isWhole = b.isWhole := rfl

/-- A whole number other than zero is written with its sign. -/
theorem truncate_neg (positive : b.negative = false) : b.neg.truncate = -(b.wholePart : Int) := by
  have same : b.neg.wholePart = b.wholePart := rfl
  rw [Binary.truncate, same]
  simp [Binary.neg, positive]

theorem wholePart_pos (whole : b.isWhole = true) (nonzero : b.mantissa ≠ 0) : 0 < b.wholePart := by
  have pos : 0 < b.fraction.1 := Nat.mul_pos (Nat.pos_of_ne_zero nonzero) (Nat.two_pow_pos _)
  have divides : b.fraction.2 ∣ b.fraction.1 :=
    Nat.dvd_of_mod_eq_zero (by simpa [Binary.isWhole] using whole)
  exact Nat.div_pos (Nat.le_of_dvd pos divides) (fraction_pos b)

end Decimal

/-! ## Writing -/

theorem amountText_eq (exact : binary? x = some b) : amountText x =
    .ok (if b.isWhole then toString b.truncate else shortestText x) := by
  simp [amountText, integerPart, truncate?, Decimal.isWhole, exact, Except.map]

/-- An amount is written as a number, perhaps with a minus sign in front. -/
theorem amountText_spelling (h : isWritable x = true) : ∃ s : Spelling,
    x = s.amount ∧ amountText x = .ok (String.ofList s.chars) ∨
      x = -s.amount ∧ amountText x = .ok (String.ofList ('-' :: s.chars)) := by
  obtain ⟨y, b, exact, positive, signed⟩ := exists_magnitude h
  have opposite : binary? (-y) = some b.neg := by rw [binary?_neg, exact]; rfl
  by_cases whole : b.isWhole = true
  · refine ⟨.ofNat b.wholePart, ?_⟩
    have amount : (Spelling.ofNat b.wholePart).amount = y := by
      rw [Spelling.amount, Spelling.digits_ofNat]
      exact nearestFloat_wholePart exact positive whole
    rw [amount, Spelling.chars_ofNat]
    rcases signed with rfl | ⟨rfl, nonzero⟩
    · left
      rw [amountText_eq exact, if_pos whole, Binary.truncate, positive]
      exact ⟨rfl, rfl⟩
    · right
      have below : -(b.wholePart : Int) < 0 :=
        Int.neg_neg_of_pos (Int.natCast_pos.mpr (wholePart_pos whole nonzero))
      rw [amountText_eq opposite, isWhole_neg, if_pos whole, truncate_neg positive, toString_eq,
        if_pos below, Int.natAbs_neg, Int.natAbs_natCast, Spelling.chars_ofNat]
      exact ⟨rfl, rfl⟩
  · obtain ⟨s, chars, -, amount⟩ := magnitudeChars_spelling exact positive
    have amount : s.amount = y := amount
    refine ⟨s, ?_⟩
    rw [amount]
    rcases signed with rfl | ⟨rfl, -⟩
    · left
      rw [amountText_eq exact, if_neg whole, shortestText, exact, chars]
      simp [positive]
    · right
      have signed : b.neg.negative = true := by simp [Binary.neg, positive]
      rw [amountText_eq opposite, isWhole_neg, if_neg whole, shortestText, opposite, chars]
      simp [signed, magnitudeChars_neg]

/-! ## Reading -/

variable (s : Spelling)

theorem ne_of_mem_chars {c : Char} (mem : c ∈ s.chars) : c ≠ ',' ∧ c ≠ '%' := by
  have number := s.isNumber (.inl rfl)
  rw [List.nil_append] at number
  rcases number.mem mem with digit | mark
  · constructor <;> rintro rfl <;> cases digit
  · have others : ',' ∉ marks ∧ '%' ∉ marks := by decide
    exact ⟨ne_of_mem_of_not_mem mark others.1, ne_of_mem_of_not_mem mark others.2⟩

/-- What is written is read as the amount, with the sign in front of it. -/
theorem amountOf_spelling {percent : List Char} (h : percent = [] ∨ percent = ['%']) :
    amountOf (String.ofList (s.chars ++ percent)) = .ok s.amount ∧
      amountOf (String.ofList ('-' :: (s.chars ++ percent))) = .ok (-s.amount) := by
  have commas : s.chars.filter (· != ',') = s.chars :=
    List.filter_eq_self.mpr fun c mem => by simpa using (ne_of_mem_chars s mem).1
  have noPercent : '%' ∉ s.chars := fun mem => (ne_of_mem_chars s mem).2 rfl
  obtain ⟨unsigned, signed⟩ := s.floatOf?_chars
  constructor
  · rw [amountOf, valueChars_ofList noPercent h, commas, unsigned]
    rfl
  · have noPercent : '%' ∉ '-' :: s.chars := by simp [noPercent]
    rw [amountOf, ← List.cons_append, valueChars_ofList noPercent h,
      List.filter_cons_of_pos (by decide), commas, signed]
    rfl

end LineCalc
