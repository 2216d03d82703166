import LineCalc.Text.Numeral
import LineCalc.Token

/-!
# Scanning numbers

The length of the numeral at the start of a text. A comma belongs to it only before the point and
only in front of exactly three digits, so that `1,234` is one number and `1,2` are two; a point only
in front of a digit; an `e` only in front of a whole power of ten. A percent sign ends it.
-/

namespace LineCalc.Token

open LineCalc.Text

/-- The text starts with a digit. -/
def startsDigit : List Char → Bool
  | c :: _ => isDigit c
  | [] => false

/-- The text starts with a digit, or with a point and a digit. -/
def startsNumber : List Char → Bool
  | c :: cs => isDigit c || c == '.' && startsDigit cs
  | [] => false

/-- The text starts with exactly three digits. -/
def startsGroup : List Char → Bool
  | a :: b :: c :: cs => isDigit a && isDigit b && isDigit c && !startsDigit cs
  | _ => false

/-- The length of the digits, group commas and point at the start of a text. -/
def mantissaLength (afterPoint : Bool) : List Char → Nat
  | [] => 0
  | c :: cs =>
    if isDigit c then mantissaLength afterPoint cs + 1
    else if c == ',' && !afterPoint && startsGroup cs then mantissaLength afterPoint cs + 1
    else if c == '.' && !afterPoint && startsDigit cs then mantissaLength true cs + 1
    else 0

/-- The length of the digits at the start of a text. -/
def digitsLength (cs : List Char) : Nat := (cs.takeWhile isDigit).length

/-- The length of the power of ten at the start of a text. -/
def powerLength : List Char → Nat
  | c :: cs =>
    if c == 'e' || c == 'E' then
      match cs with
      | sign :: rest =>
        if isDigit sign then digitsLength cs + 1
        else if (sign == '+' || sign == '-') && startsDigit rest then digitsLength rest + 2
        else 0
      | [] => 0
    else 0
  | [] => 0

/-- The kind and the length of the numeral without sign at the start of a text. -/
def numeral (cs : List Char) : TokenKind × Nat :=
  let mantissa := mantissaLength false cs
  let length := mantissa + powerLength (cs.drop mantissa)
  match cs.drop length with
  | '%' :: _ => (.percent, length + 1)
  | _ => (.number, length)

theorem numeral_pos {cs : List Char} (h : startsNumber cs = true) : 0 < (numeral cs).2 := by
  have mantissa_pos : 0 < mantissaLength false cs := by
    cases cs with
    | nil => simp [startsNumber] at h
    | cons c cs =>
      simp only [startsNumber, Bool.or_eq_true, Bool.and_eq_true] at h
      unfold mantissaLength
      grind
  simp only [numeral]
  split <;> omega

end LineCalc.Token
