import LineCalc.Text.Quoted

/-!
# Tokens

A token keeps the exact piece of the text that it was read from, with the place where it starts.
-/

namespace LineCalc

/-- The kinds of tokens. -/
inductive TokenKind
  | finish | stray
  | number | percent | word
  | plus | minus | times | slash | caret | doubleStar
  | leftParen | rightParen | equals | comma
  /-- `in` or `to`. -/
  | inWord
  | ofWord | modWord
  | dollar | euro | pound | yen | bitcoin
  /-- Any other one-character symbol of a currency or a token. -/
  | glyph
  | comment | newline
deriving DecidableEq, Repr

namespace TokenKind

/-- The name of a kind. -/
def label : TokenKind → String
  | .finish => "EOF"
  | .stray => "ILLEGAL"
  | .number => "NUMBER"
  | .percent => "PERCENT"
  | .word => "IDENT"
  | .plus => "PLUS"
  | .minus => "MINUS"
  | .times => "STAR"
  | .slash => "SLASH"
  | .caret => "CARET"
  | .doubleStar => "POWER"
  | .leftParen => "LPAREN"
  | .rightParen => "RPAREN"
  | .equals => "EQUALS"
  | .comma => "COMMA"
  | .inWord => "IN"
  | .ofWord => "OF"
  | .modWord => "MOD"
  | .dollar => "DOLLAR"
  | .euro => "EURO"
  | .pound => "POUND"
  | .yen => "YEN"
  | .bitcoin => "BITCOIN"
  | .glyph => "CURRENCY"
  | .comment => "COMMENT"
  | .newline => "NEWLINE"

/-- The kind is that of an arithmetic operator. -/
def isOperator : TokenKind → Bool
  | .plus | .minus | .times | .slash | .caret | .doubleStar | .modWord => true
  | _ => false

/-- The kind is that of a symbol which stands beside an amount. -/
def isSymbol : TokenKind → Bool
  | .dollar | .euro | .pound | .yen | .bitcoin | .glyph => true
  | _ => false

end TokenKind

/-- A piece of a text with its place: `pos` counts characters from 0, `line` and `col` from 1. -/
structure Token where
  kind : TokenKind
  text : String
  pos : Nat
  line : Nat := 1
  col : Nat := 1
deriving DecidableEq, Repr

/-- A token on one line, for messages. -/
def Token.describe (t : Token) : String :=
  s!"{t.kind.label}({Text.quoted t.text}@{t.pos})"

end LineCalc
