import LineCalc.Text.Ranges

/-!
# Blanks

Two notions of blank. Free text is trimmed and cut into words at every spacing character of any
script, and at the control characters that separate lines and records. Of the ASCII characters a
numeral is trimmed at the six usual blanks only.
-/

namespace LineCalc.Text

/-- The characters that separate words. -/
def blanks : Ranges := [
  (0x9, 0xd), (0x1c, 0x20), (0x85, 0x85), (0xa0, 0xa0), (0x1680, 0x1680), (0x2000, 0x200a),
  (0x2028, 0x2029), (0x202f, 0x202f), (0x205f, 0x205f), (0x3000, 0x3000)]

/-- A character that separates words. -/
def isBlank (c : Char) : Bool := blanks.has c

/-- A tab, a space, or one of the four ASCII line separators. -/
def isAsciiBlank (c : Char) : Bool :=
  c == ' ' || 0x9 ≤ c.toNat && c.toNat ≤ 0xd

theorem isAsciiBlank_isBlank {c : Char} (h : isAsciiBlank c = true) : isBlank c = true := by
  simp only [isAsciiBlank, Bool.or_eq_true, beq_iff_eq, Bool.and_eq_true, decide_eq_true_eq] at h
  rw [isBlank, Ranges.has_iff]
  rcases h with rfl | h
  · exact ⟨(0x1c, 0x20), by simp [blanks], by decide, by decide⟩
  · exact ⟨(0x9, 0xd), by simp [blanks], h.1, h.2⟩

/-- The text without the characters of a class at either end. -/
def trimOf (p : Char → Bool) (cs : List Char) : List Char :=
  ((cs.dropWhile p).reverse.dropWhile p).reverse

/-- The text without blanks at either end. -/
def trim (s : String) : String :=
  String.ofList (trimOf isBlank s.toList)

/-- The words of a text. `word` holds, last character first, what the open word has so far. -/
def wordsFrom (word : List Char) : List Char → List (List Char)
  | [] => if word.isEmpty then [] else [word.reverse]
  | c :: cs =>
    if isBlank c then
      if word.isEmpty then wordsFrom [] cs else word.reverse :: wordsFrom [] cs
    else wordsFrom (c :: word) cs

/-- The words of a text: its longest runs without blanks. -/
def words (s : String) : List String :=
  (wordsFrom [] s.toList).map String.ofList

/-- The pieces between the separators. `piece` holds, last first, what the open piece has. -/
def piecesFrom (sep : Char) (piece : List Char) : List Char → List (List Char)
  | [] => [piece.reverse]
  | c :: cs =>
    if c == sep then piece.reverse :: piecesFrom sep [] cs else piecesFrom sep (c :: piece) cs

/-- The pieces of a text between the separators, always one more than there are separators. -/
def pieces (sep : Char) (s : String) : List String :=
  (piecesFrom sep [] s.toList).map String.ofList

/-- The lines of a text, which a line feed separates. -/
def lines (s : String) : List String := pieces '\n' s

end LineCalc.Text
