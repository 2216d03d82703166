import LineCalc.Text.Table.Numeral

/-!
# Digits

Three nested classes: decimal digits, which have a place in positional notation; digits, which
also count the superscripts and the circled digits; and numerals, which also count fractions and
the like. A number is *scanned* by digits and *read* by decimal digits, so a text such as `2²` is
scanned as a number but has no value.
-/

namespace LineCalc.Text

/-- The value of a decimal digit of any script. -/
def decimalValue? (c : Char) : Option Nat :=
  if c.toNat < 128 then
    if c.isDigit then some (c.toNat - '0'.toNat) else none
  else
    (Table.decimalZeros.find? fun first => first ≤ c.toNat && c.toNat < first + 10).map (c.toNat - ·)

/-- A character that a number is scanned by. -/
def isDigit (c : Char) : Bool :=
  if c.toNat < 128 then c.isDigit else (decimalValue? c).isSome || Table.loneDigits.has c

/-- A digit or any other numeric character that is no letter. -/
def isNumeral (c : Char) : Bool :=
  isDigit c || c.toNat ≥ 128 && Table.otherNumerals.has c

/-- The value of a list of decimal digits, most significant first. -/
def ofDecimalDigits (digits : List Nat) : Nat :=
  digits.foldl (fun n d => 10 * n + d) 0

theorem ofDecimalDigits_append_singleton (ds : List Nat) (d : Nat) :
    ofDecimalDigits (ds ++ [d]) = 10 * ofDecimalDigits ds + d := by
  simp [ofDecimalDigits]

end LineCalc.Text
