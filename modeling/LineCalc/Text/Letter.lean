import LineCalc.Text.Numeral
import LineCalc.Text.Table.Letter

/-!
# Letters and word characters

A word is a run of letters, numerals and underscores that does not begin with a numeral.
-/

namespace LineCalc.Text

/-- A letter of any script. -/
def isLetter (c : Char) : Bool :=
  if c.toNat < 128 then c.isAlpha else Table.letters.has c

/-- A character that may begin a word. -/
def startsWord (c : Char) : Bool :=
  isLetter c || c == '_'

/-- A character that may continue a word. -/
def continuesWord (c : Char) : Bool :=
  isLetter c || isNumeral c || c == '_'

/-- The first characters of `cs` that form one word. -/
def leadingWord (cs : List Char) : List Char :=
  cs.takeWhile continuesWord

theorem startsWord_continuesWord {c : Char} (h : startsWord c = true) :
    continuesWord c = true := by
  simp only [startsWord, continuesWord, Bool.or_eq_true] at *
  exact h.elim (fun h => Or.inl (Or.inl h)) Or.inr

end LineCalc.Text
