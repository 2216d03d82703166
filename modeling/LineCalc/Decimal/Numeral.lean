import LineCalc.Decimal.Binary
import LineCalc.Text.Blank
import LineCalc.Text.Numeral

/-!
# Reading numbers

The text of a double or of an integer: blanks around it, a sign, decimal digits of any script, and
single underscores between digits. A double may also have a point, a power of ten, or be one of the
words `inf`, `infinity` and `nan` in any case.
-/

namespace LineCalc.Decimal

open LineCalc.Text

/-- A character of a numeral in ASCII: digits of all scripts by their values, blanks of all scripts
as spaces, and a question mark for what has no place in a number. -/
def plainChar (c : Char) : Char :=
  if c.toNat < 128 then c
  else if isBlank c then ' '
  else match decimalValue? c with
    | some d => Char.ofNat ('0'.toNat + d)
    | none => '?'

/-- The text in ASCII without the blanks around it. -/
def plainNumeral (cs : List Char) : List Char :=
  trimOf isAsciiBlank (cs.map plainChar)

/-- Removes the underscores between digits; refuses an underscore elsewhere. `afterDigit` tells
whether the character before was a digit. -/
def dropUnderscores? (afterDigit : Bool) : List Char → Option (List Char)
  | [] => some []
  | '_' :: c :: cs =>
    if afterDigit && c.isDigit then (dropUnderscores? true cs).map (c :: ·) else none
  | '_' :: [] => none
  | c :: cs => (dropUnderscores? c.isDigit cs).map (c :: ·)

/-- The leading ASCII digits by their values, and what follows. -/
def spanDigits (cs : List Char) : List Nat × List Char :=
  ((cs.takeWhile Char.isDigit).map (fun c => c.toNat - '0'.toNat), cs.dropWhile Char.isDigit)

/-- A sign, if there is one: whether it is a minus, and what follows. -/
def splitSign : List Char → Bool × List Char
  | '-' :: cs => (true, cs)
  | '+' :: cs => (false, cs)
  | cs => (false, cs)

/-- The power of ten of a numeral, which has to be all that is left. -/
def readExponent? : List Char → Option Int
  | [] => some 0
  | c :: cs =>
    if c == 'e' || c == 'E' then
      let (negative, rest) := splitSign cs
      match spanDigits rest with
      | ([], _) => none
      | (ds, []) => some (if negative then -(ofDecimalDigits ds : Int) else ofDecimalDigits ds)
      | (_, _ :: _) => none
    else none

/-- The double nearest to `digits · 10^exponent`. -/
def nearestFloat (digits : Nat) (exponent : Int) : Float :=
  Float.ofScientific digits (exponent < 0) exponent.natAbs

/-- A numeral without sign: digits with at most one point among or around them, and a power of
ten. -/
def readMagnitude? (cs : List Char) : Option Float :=
  let (whole, rest) := spanDigits cs
  let (fraction, rest) := match rest with
    | '.' :: after => spanDigits after
    | _ => ([], rest)
  if whole.isEmpty && fraction.isEmpty then none
  else (readExponent? rest).map fun e =>
    nearestFloat (ofDecimalDigits (whole ++ fraction)) (e - fraction.length)

/-- The words for the doubles that are no numbers. -/
def readWord? (cs : List Char) : Option Float :=
  let word := String.ofList (cs.map Char.toLower)
  if word == "inf" || word == "infinity" then some (1.0 / 0.0)
  else if word == "nan" then some (0.0 / 0.0)
  else none

/-- The double that some characters name. -/
def floatOf? (cs : List Char) : Option Float := do
  let plain ← dropUnderscores? false (plainNumeral cs)
  let (negative, rest) := splitSign plain
  let x ← (readMagnitude? rest).orElse fun _ => readWord? rest
  return if negative then -x else x

/-- The double that a text names. -/
def readFloat? (s : String) : Option Float := floatOf? s.toList

/-- Why a text names no integer. -/
inductive IntegerProblem
  | malformed
  | tooLong (digits : Nat)
deriving DecidableEq, Repr

/-- The longest integer that is read, in digits. -/
def longestInteger : Nat := 4300

/-- A character that an integer is scanned by. -/
def isIntegerChar (c : Char) : Bool := c.isDigit || c == '_'

/-- The integer that a text names. Too many digits are a problem even if something else follows
them, but not if an underscore is out of place among them. -/
def readInteger (s : String) : Except IntegerProblem Int :=
  let (negative, cs) := splitSign (plainNumeral s.toList)
  match dropUnderscores? false (cs.takeWhile isIntegerChar) with
  | none | some [] => .error .malformed
  | some digits =>
    if digits.length > longestInteger then .error (.tooLong digits.length)
    else if !(cs.dropWhile isIntegerChar).isEmpty then .error .malformed
    else
      let n := ofDecimalDigits (spanDigits digits).1
      .ok (if negative then -(n : Int) else n)

end LineCalc.Decimal
