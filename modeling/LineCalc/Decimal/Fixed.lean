import LineCalc.Decimal.Shortest

/-!
# Fixed decimal places

A double set out with a given number of decimals: the exact binary value is rounded once to that
many places, a tie going to the even neighbour.
-/

namespace LineCalc.Decimal

/-- Where a number halfway between two integers goes. -/
inductive TieRule
  | toEven
  | awayFromZero
deriving DecidableEq, Repr

/-- The integer nearest to `num / den`. -/
def roundDiv (tie : TieRule) (num den : Nat) : Nat :=
  let q := num / den
  let rest := 2 * (num % den)
  if rest < den then q
  else if rest > den then q + 1
  else match tie with
    | .toEven => if q % 2 == 0 then q else q + 1
    | .awayFromZero => q + 1

/-- Rounding moves a number by at most half a unit. -/
theorem roundDiv_close (tie : TieRule) (num den : Nat) (h : 0 < den) :
    2 * num ≤ 2 * (roundDiv tie num den * den) + den ∧
      2 * (roundDiv tie num den * den) ≤ 2 * num + den := by
  have hd := Nat.div_add_mod num den
  have hm := Nat.mod_lt num h
  have e1 : num / den * den = den * (num / den) := Nat.mul_comm ..
  have e2 : (num / den + 1) * den = den * (num / den) + den := by
    rw [Nat.add_mul, Nat.one_mul, Nat.mul_comm]
  cases tie <;> simp only [roundDiv] <;> repeat' split
  all_goals omega

/-- The magnitude in units of the last of `places` decimals. -/
def Binary.inPlaces (b : Binary) (places : Nat) : Nat :=
  roundDiv .toEven (b.fraction.1 * tenTo places) b.fraction.2

/-- Digits with a decimal point before the last `places` of them. -/
def pointChars (n places : Nat) : List Char :=
  let ds := digitChars n
  let padded := List.replicate (places + 1 - ds.length) '0' ++ ds
  let whole := padded.length - places
  padded.take whole ++ (if places == 0 then [] else '.' :: padded.drop whole)

/-- A double with `places` decimals. The sign is kept even where only zeros are left. -/
def fixedText (x : Float) (places : Nat) : String :=
  match binary? x with
  | some b =>
    String.ofList ((if b.negative then ['-'] else []) ++ pointChars (b.inPlaces places) places)
  | none => if x.isNaN then "nan" else if x < 0 then "-inf" else "inf"

end LineCalc.Decimal
