import LineCalc.Catalog.Denomination
import LineCalc.Token.Number
import LineCalc.Token.Phrase

/-!
# Tokens of a text

The text is cut at the front: of what is left, `lexeme` says the kind of the first token and how
many characters beyond the first one it takes. So no token is empty, none overlap, and nothing but
blanks is left out. A minus sign belongs to the number after it only where an operand may begin:
at the start, or after one of the characters `+-*/^(=,` or a line break, blanks not counted.
-/

namespace LineCalc.Token

open LineCalc.Text

/-- A place in a text, with the last character before it that is no blank. -/
structure Cursor where
  pos : Nat := 0
  line : Nat := 1
  col : Nat := 1
  last : Option Char := none
deriving DecidableEq, Repr

namespace Cursor

/-- The place after one more character. -/
def step (cur : Cursor) (c : Char) : Cursor where
  pos := cur.pos + 1
  line := if c == '\n' then cur.line + 1 else cur.line
  col := if c == '\n' then 1 else cur.col + 1
  last := if isGap c then cur.last else some c

/-- The place after some more characters. -/
def advance (cur : Cursor) (cs : List Char) : Cursor := cs.foldl step cur

/-- An operand may begin here. -/
def opensOperand (cur : Cursor) : Bool :=
  match cur.last with
  | none => true
  | some c => c ∈ ['+', '-', '*', '/', '^', '(', '=', ',', '\n']

end Cursor

/-- A symbol of a currency or a token that is one character and could not begin a word of ASCII
letters. -/
def isGlyph (c : Char) : Bool :=
  !c.isAlphanum && (Denomination.ofSymbol? (String.singleton c)).isSome

/-- All glyphs, in order. -/
def glyphs : List Char :=
  (((Currency.symbols ++ Crypto.symbols).flatMap String.toList).eraseDups.filter isGlyph).mergeSort
    fun a b => a ≤ b

/-- The kind of a glyph. -/
def glyphKind : Char → TokenKind
  | '$' => .dollar
  | '€' => .euro
  | '£' => .pound
  | '¥' => .yen
  | '₿' => .bitcoin
  | _ => .glyph

/-- The kind of a word that is a keyword. -/
def keyword? : String → Option TokenKind
  | "in" | "to" => some .inWord
  | "of" => some .ofWord
  | "mod" => some .modWord
  | _ => none

/-- The kind of a character that stands for itself. -/
def punctuation : Char → TokenKind
  | '+' => .plus
  | '-' => .minus
  | '*' => .times
  | '/' => .slash
  | '^' => .caret
  | '(' => .leftParen
  | ')' => .rightParen
  | '=' => .equals
  | ',' => .comma
  | _ => .stray

/-- The kind of the first token of `c :: cs`, and how many characters of `cs` belong to it. -/
def lexeme (cur : Cursor) (c : Char) (cs : List Char) : TokenKind × Nat :=
  if c == '\n' then (.newline, 0)
  else if c == '#' || c == '/' && cs.head? == some '/' then
    (.comment, (cs.takeWhile (· != '\n')).length)
  else if isGlyph c then (glyphKind c, 0)
  else if startsNumber (c :: cs) then
    let (kind, length) := numeral (c :: cs)
    (kind, length - 1)
  else if c == '-' && startsNumber cs && cur.opensOperand then numeral cs
  else if startsWord c then
    let word := c :: leadingWord cs
    match keyword? (lower (String.ofList word)) with
    | some kind => (kind, word.length - 1)
    | none =>
      let length := word.length - 1
      (.word, length + phraseLength (String.ofList word) (cs.drop length))
  else if c == '*' && cs.head? == some '*' then (.doubleStar, 1)
  else (punctuation c, 0)

/-- The tokens of the rest of a text from a place on. -/
def lexFrom (cur : Cursor) : List Char → List Token
  | [] => [⟨.finish, "", cur.pos, cur.line, cur.col⟩]
  | c :: cs =>
    if isGap c then lexFrom (cur.step c) cs
    else
      let (kind, more) := lexeme cur c cs
      let text := c :: cs.take more
      ⟨kind, String.ofList text, cur.pos, cur.line, cur.col⟩
        :: lexFrom (cur.advance text) (cs.drop more)
termination_by cs => cs.length
decreasing_by all_goals (simp only [List.length_cons, List.length_drop]; omega)

/-- The tokens of a text; the last one, and only that, marks the end. -/
def ofText (text : String) : List Token := lexFrom {} text.toList

/-- The tokens of a text without its comments. -/
def ofTextWithoutComments (text : String) : List Token :=
  (ofText text).filter (·.kind != .comment)

end LineCalc.Token
