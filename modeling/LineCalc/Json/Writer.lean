import LineCalc.Decimal.Shortest
import LineCalc.Json.Basic
import LineCalc.Text.Quoted

/-!
# Writing JSON

JSON texts in ASCII: other characters are written by their code units. A text is compact, on one
line, or indented with a line for each item. `display` is a third form, for messages: strings in
single quotes, and the words `None`, `True` and `False`.
-/

namespace LineCalc.Json

/-- A code unit as an escape. -/
def unitEscape (n : Nat) : List Char := '\\' :: 'u' :: Text.hexDigits 4 n

/-- A character inside a JSON string. -/
def escapeChar (c : Char) : List Char :=
  if c == '"' then ['\\', '"']
  else if c == '\\' then ['\\', '\\']
  else if c == '\n' then ['\\', 'n']
  else if c == '\r' then ['\\', 'r']
  else if c == '\t' then ['\\', 't']
  else if c == '\x08' then ['\\', 'b']
  else if c == '\x0c' then ['\\', 'f']
  else if 0x20 ≤ c.toNat && c.toNat < 0x7f then [c]
  else if c.toNat < 0x10000 then unitEscape c.toNat
  else
    let n := c.toNat - 0x10000
    unitEscape (0xd800 + n / 0x400) ++ unitEscape (0xdc00 + n % 0x400)

/-- A JSON string. -/
def stringText (s : String) : String :=
  String.ofList ('"' :: s.toList.flatMap escapeChar ++ ['"'])

/-- A JSON number; the doubles that are no numbers are written as words. -/
def decimalText (x : Float) : String :=
  if x.isNaN then "NaN"
  else if x.isInf then if x < 0 then "-Infinity" else "Infinity"
  else Decimal.shortestText x

mutual

/-- The compact text of a value. -/
def compact : Json → String
  | null => "null"
  | bool b => if b then "true" else "false"
  | integer n => toString n
  | decimal x => decimalText x
  | string s => stringText s
  | array items => "[" ++ ", ".intercalate (compactItems items) ++ "]"
  | object ms => "\x7b" ++ ", ".intercalate (compactMembers ms) ++ "\x7d"

/-- The compact texts of some values. -/
def compactItems : List Json → List String
  | [] => []
  | j :: js => j.compact :: compactItems js

/-- The compact texts of some members. -/
def compactMembers : List (String × Json) → List String
  | [] => []
  | (key, j) :: ms => (stringText key ++ ": " ++ j.compact) :: compactMembers ms

end

/-- The blanks before a line at some depth. -/
def indentation (depth : Nat) : String := String.ofList (List.replicate (2 * depth) ' ')

/-- Parts on a line each between two brackets. -/
def block (opening closing : String) (depth : Nat) (parts : List String) : String :=
  if parts.isEmpty then opening ++ closing
  else
    let separator := ",\n" ++ indentation (depth + 1)
    opening ++ "\n" ++ indentation (depth + 1) ++ separator.intercalate parts ++ "\n"
      ++ indentation depth ++ closing

mutual

/-- The text of a value on lines of its own, from some depth on. -/
def indentedAt (depth : Nat) : Json → String
  | array items => block "[" "]" depth (indentedItems (depth + 1) items)
  | object ms => block "\x7b" "\x7d" depth (indentedMembers (depth + 1) ms)
  | null => compact null
  | bool b => compact (bool b)
  | integer n => compact (integer n)
  | decimal x => compact (decimal x)
  | string s => compact (string s)

/-- The texts of some values at a depth. -/
def indentedItems (depth : Nat) : List Json → List String
  | [] => []
  | j :: js => j.indentedAt depth :: indentedItems depth js

/-- The texts of some members at a depth. -/
def indentedMembers (depth : Nat) : List (String × Json) → List String
  | [] => []
  | (key, j) :: ms => (stringText key ++ ": " ++ j.indentedAt depth) :: indentedMembers depth ms

end

/-- The indented text of a value. -/
def indented (j : Json) : String := j.indentedAt 0

mutual

/-- The text of a value in messages. -/
def display : Json → String
  | null => "None"
  | bool b => if b then "True" else "False"
  | integer n => toString n
  | decimal x => Decimal.shortestText x
  | string s => Text.quoted s
  | array items => "[" ++ ", ".intercalate (displayItems items) ++ "]"
  | object ms => "\x7b" ++ ", ".intercalate (displayMembers ms) ++ "\x7d"

/-- The texts of some values in messages. -/
def displayItems : List Json → List String
  | [] => []
  | j :: js => j.display :: displayItems js

/-- The texts of some members in messages. -/
def displayMembers : List (String × Json) → List String
  | [] => []
  | (key, j) :: ms => (Text.quoted key ++ ": " ++ j.display) :: displayMembers ms

end

/-- A value as a plain text: a string as it is, all else as in messages. -/
def plainText : Json → String
  | string s => s
  | j => j.display

end LineCalc.Json
