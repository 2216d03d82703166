import LineCalc.Text.Numeral
import Mathlib

/-!
# Decimal digits

The value of a row of decimal digits, and the digits that a natural number is written by: they have
that number as their value and do not begin with a zero.
-/

namespace LineCalc.Decimal

/-- The value of a row of ASCII digits. -/
def digitsValue (ds : List Char) : Nat :=
  Text.ofDecimalDigits (ds.map fun d => d.toNat - '0'.toNat)

variable {ds : List Char} {n : Nat}

theorem digitsValue_append_singleton (ds : List Char) (d : Char) :
    digitsValue (ds ++ [d]) = 10 * digitsValue ds + (d.toNat - '0'.toNat) := by
  rw [digitsValue, List.map_append, List.map_singleton, Text.ofDecimalDigits_append_singleton]
  rfl

theorem digitsValue_append (ds es : List Char) :
    digitsValue (ds ++ es) = digitsValue ds * 10 ^ es.length + digitsValue es := by
  induction es using List.reverseRecOn with
  | nil => simp [digitsValue, Text.ofDecimalDigits]
  | append_singleton es e ih =>
    rw [← List.append_assoc, digitsValue_append_singleton, ih, digitsValue_append_singleton,
      List.length_append, List.length_singleton, Nat.pow_succ]
    ring

theorem digitsValue_zeros (k : Nat) : digitsValue (List.replicate k '0') = 0 := by
  induction k with
  | zero => rfl
  | succ k ih => rw [List.replicate_succ', digitsValue_append_singleton, ih]; rfl

/-- Zeros in front do not count. -/
theorem digitsValue_zeros_append (k : Nat) (ds : List Char) :
    digitsValue (List.replicate k '0' ++ ds) = digitsValue ds := by
  rw [digitsValue_append, digitsValue_zeros, Nat.zero_mul, Nat.zero_add]

/-- Zeros behind are powers of ten. -/
theorem digitsValue_append_zeros (ds : List Char) (k : Nat) :
    digitsValue (ds ++ List.replicate k '0') = digitsValue ds * 10 ^ k := by
  rw [digitsValue_append, digitsValue_zeros, List.length_replicate, Nat.add_zero]

theorem toNat_digitChar {d : Nat} (digit : d < 10) : d.digitChar.toNat - '0'.toNat = d := by
  have all : ∀ d < 10, d.digitChar.toNat - '0'.toNat = d := by decide
  exact all d digit

/-- A number is the value of its digits. -/
theorem digitsValue_toDigits (n : Nat) : digitsValue (Nat.toDigits 10 n) = n := by
  induction n using Nat.strong_induction_on with
  | _ n ih =>
    rw [Nat.toDigits_eq_if (by decide)]
    split
    · next digit =>
      rw [← List.nil_append [n.digitChar], digitsValue_append_singleton, toNat_digitChar digit]
      exact Nat.zero_add n
    · next long =>
      have shorter : n / 10 < n := Nat.div_lt_self (by omega) (by decide)
      rw [digitsValue_append_singleton, ih _ shorter, toNat_digitChar (Nat.mod_lt n (by decide))]
      exact Nat.div_add_mod n 10

theorem isDigit_of_mem_toDigits {c : Char} (mem : c ∈ Nat.toDigits 10 n) : c.isDigit = true :=
  Nat.isDigit_of_mem_toDigits (by decide) (by decide) mem

/-- A positive number is not written with a zero in front. -/
theorem toDigits_eq_cons (pos : 0 < n) : ∃ d ds, Nat.toDigits 10 n = d :: ds ∧ d ≠ '0' := by
  induction n using Nat.strong_induction_on with
  | _ n ih =>
    rw [Nat.toDigits_eq_if (by decide)]
    split
    · next digit =>
      have all : ∀ d < 10, 0 < d → d.digitChar ≠ '0' := by decide
      exact ⟨_, [], rfl, all n digit pos⟩
    · next long =>
      have shorter : n / 10 < n := Nat.div_lt_self pos (by decide)
      obtain ⟨d, ds, eq, notZero⟩ := ih (n / 10) shorter (by omega)
      exact ⟨d, _, congrArg (· ++ _) eq, notZero⟩

end LineCalc.Decimal
