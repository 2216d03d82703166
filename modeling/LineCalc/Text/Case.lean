import LineCalc.Text.Table.Case

/-!
# Letter case

Full case mapping of a text. Upper-casing works character by character, and one character may
give several (`ß` gives `SS`). Lower-casing needs the neighbours in one place only: a capital
sigma becomes `ς` at the end of a word and `σ` elsewhere.
-/

namespace LineCalc.Text

/-- The character moved by the first run that covers it. -/
def shifted (runs : List Table.CaseRun) (c : Char) : Char :=
  match runs.find? (·.covers c.toNat) with
  | some run => Char.ofNat (c.toNat + run.shift).toNat
  | none => c

/-- The upper-case form of a character. -/
def upperChar (c : Char) : List Char :=
  if c.toNat < 128 then [c.toUpper]
  else
    match Table.upperExpansions.lookup c.toNat with
    | some codes => codes.map Char.ofNat
    | none => [shifted Table.upperRuns c]

/-- The upper-case form of a text. -/
def upper (s : String) : String :=
  String.ofList (s.toList.flatMap upperChar)

/-- Characters that do not count when the neighbours of a sigma are looked at. -/
def isCaseIgnorable (c : Char) : Bool :=
  if c.toNat < 128 then c ∈ ['\'', '.', ':', '^', '\x60'] else Table.caseIgnorable.has c

/-- A letter that has case. -/
def isCased (c : Char) : Bool :=
  if c.toNat < 128 then c.isAlpha else Table.cased.has c

/-- The nearest character that counts has case. -/
def meetsCased (cs : List Char) : Bool :=
  (cs.dropWhile isCaseIgnorable).head?.any isCased

/-- The lower-case form of a character with `before` (nearest first) and `after` around it. -/
def lowerChar (before : List Char) (c : Char) (after : List Char) : List Char :=
  if c.toNat < 128 then [c.toLower]
  else if c == 'Σ' then [if meetsCased before && !meetsCased after then 'ς' else 'σ']
  else if c == 'İ' then ['i', '\u0307']
  else [shifted Table.lowerRuns c]

/-- The lower-case form of `cs`, which follows `before` (nearest first). -/
def lowerFrom (before : List Char) : List Char → List Char
  | [] => []
  | c :: cs => lowerChar before c cs ++ lowerFrom (c :: before) cs

/-- The lower-case form of a text. -/
def lower (s : String) : String :=
  String.ofList (lowerFrom [] s.toList)

end LineCalc.Text
