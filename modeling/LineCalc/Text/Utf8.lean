import LineCalc.Text.Quoted

/-!
# Bytes of texts

Texts from bytes in UTF-8. Bytes that are no part of a character are read as the replacement
character, one for each run of them that begins like a character.
-/

namespace LineCalc.Text

/-- The character that stands for what cannot be read. -/
def replacementChar : Char := '\ufffd'

/-- What a first byte begins: how many bytes follow, and between which bounds the next one lies.
Nothing begins with any other byte. -/
def leadByte? (b : Nat) : Option (Nat × Nat × Nat) :=
  if b < 0x80 then some (0, 0, 0)
  else if 0xc2 ≤ b && b ≤ 0xdf then some (1, 0x80, 0xbf)
  else if b == 0xe0 then some (2, 0xa0, 0xbf)
  else if b == 0xed then some (2, 0x80, 0x9f)
  else if 0xe1 ≤ b && b ≤ 0xef then some (2, 0x80, 0xbf)
  else if b == 0xf0 then some (3, 0x90, 0xbf)
  else if 0xf1 ≤ b && b ≤ 0xf3 then some (3, 0x80, 0xbf)
  else if b == 0xf4 then some (3, 0x80, 0x8f)
  else none

/-- How many of the bytes that should follow a first byte do so. -/
def followers (lo hi : Nat) : Nat → List Nat → Nat
  | 0, _ | _, [] => 0
  | n + 1, b :: bs => if lo ≤ b && b ≤ hi then 1 + followers 0x80 0xbf n bs else 0

/-- The character of a first byte and those that follow it. -/
def joinBytes (count first : Nat) (rest : List Nat) : Char :=
  let bits := match count with
    | 0 => first
    | 1 => first % 0x20
    | 2 => first % 0x10
    | _ => first % 0x08
  Char.ofNat (rest.foldl (fun n b => n * 0x40 + b % 0x40) bits)

/-- The characters of some bytes. -/
def decodeBytes : List Nat → List Char
  | [] => []
  | b :: bs =>
    match leadByte? b with
    | none => replacementChar :: decodeBytes bs
    | some (count, lo, hi) =>
      let n := followers lo hi count bs
      (if n == count then joinBytes count b (bs.take n) else replacementChar)
        :: decodeBytes (bs.drop n)
termination_by bytes => bytes.length
decreasing_by all_goals (simp only [List.length_cons, List.length_drop]; omega)

/-- The value of a hexadecimal digit. -/
def hexDigit? (c : Char) : Option Nat :=
  if '0' ≤ c && c ≤ '9' then some (c.toNat - '0'.toNat)
  else if 'a' ≤ c && c ≤ 'f' then some (c.toNat - 'a'.toNat + 10)
  else if 'A' ≤ c && c ≤ 'F' then some (c.toNat - 'A'.toNat + 10)
  else none

/-- The bytes of a text in which `%` and two hexadecimal digits stand for a byte. -/
def percentBytes : List Char → List Nat
  | [] => []
  | '%' :: a :: b :: rest =>
    match hexDigit? a, hexDigit? b with
    | some high, some low => (16 * high + low) :: percentBytes rest
    | _, _ => '%'.toNat :: percentBytes (a :: b :: rest)
  | c :: rest => (String.singleton c).toUTF8.toList.map (·.toNat) ++ percentBytes rest
termination_by cs => cs.length

/-- A text with its percent escapes resolved. -/
def percentDecoded (s : String) : String := String.ofList (decodeBytes (percentBytes s.toList))

end LineCalc.Text
