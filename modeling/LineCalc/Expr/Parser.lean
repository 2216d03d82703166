import LineCalc.Decimal.Numeral
import LineCalc.Expr
import LineCalc.Fault
import LineCalc.Problem
import LineCalc.Token.Lexer

/-!
# Parsing a line

Precedence climbing over the tokens of a line. A problem is noted and parsing goes on, a zero in the
place of what is missing, so every line has a tree; of a line with problems only the problems are
used. Tokens left over at the end are not looked at.

Each part says how many tokens it has used, so what it leaves is a tail of what it was given; it
leaves fewer wherever parsing goes round in a loop, and so parsing ends. The tokens do not include
the mark of the end: the end is where none is left.
-/

namespace LineCalc.Parser

/-- The name of the previous result. -/
def previousName : String := "_"

/-- What is known of the whole text: its characters, if it is given, and where it ends. -/
structure Source where
  text : Option (List Char)
  endPos : Nat

/-- What was read: a value, how many tokens were used, and the problems met, in order. -/
structure Parsed (α : Type) where
  value : α
  used : Nat
  problems : List Diagnostic := []

/-- The outcome of reading a part. -/
abbrev Outcome (α : Type) := Except Fault (Parsed α)

/-- The same part seen from `n` tokens before, where `earlier` went wrong. -/
def Parsed.behind (p : Parsed α) (n : Nat) (earlier : List Diagnostic) (f : α → β) : Parsed β :=
  ⟨f p.value, n + p.used, earlier ++ p.problems⟩

/-- The place of the first token. -/
def posOf (src : Source) : List Token → Nat
  | t :: _ => t.pos
  | [] => src.endPos

/-- The first token is of a kind. -/
def startsWith (kind : TokenKind) : List Token → Bool
  | t :: _ => t.kind == kind
  | [] => false

/-- The operator that a token stands for. -/
def binaryOp? : TokenKind → Option BinaryOp
  | .plus => some .add
  | .minus => some .sub
  | .times => some .mul
  | .slash => some .div
  | .modWord => some .mod
  | .caret | .doubleStar => some .pow
  | _ => none

/-- The sign that a token stands for in front of an operand. -/
def signOp? : TokenKind → Option SignOp
  | .minus => some .minus
  | .plus => some .plus
  | _ => none

/-- The characters of a numeral that give its value: all but group commas and a percent sign. -/
def valueChars (numeral : String) : List Char :=
  ((numeral.toList.filter (· != ',')).reverse.dropWhile (· == '%')).reverse

/-- The amount that a numeral names. -/
def amountOf (numeral : String) : Except Fault Float :=
  match Decimal.floatOf? (valueChars numeral) with
  | some x => .ok x
  | none => .error (.notANumeral (String.ofList (valueChars numeral)))

/-- The fraction that a percentage names. -/
def fractionOf (percentage : String) : Except Fault Float :=
  (amountOf percentage).map (· / 100)

/-- The text from one token to another; without a source, the two with a space between them. -/
def rawBetween (src : Source) (first last : Token) : String :=
  match src.text with
  | none => s!"{first.text} {last.text}"
  | some cs => String.ofList ((cs.take (last.pos + last.text.length)).drop first.pos)

/-- The denomination that the token after a number gives it. A word in front of a parenthesis is a
function and gives none. -/
def suffixOf (t : Token) (rest : List Token) : Option Denomination :=
  if t.kind == .word then
    if startsWith .leftParen rest then none else Denomination.ofName? t.text
  else if t.kind.isSymbol then Denomination.ofSymbol? t.text
  else none

/-- The number `t` with the denomination after it, if there is one. -/
def parseNumber (src : Source) (t : Token) (ts : List Token) : Outcome Expr :=
  match amountOf t.text with
  | .error fault => .error fault
  | .ok x =>
    match ts with
    | next :: rest =>
      match suffixOf next rest with
      | some d => .ok ⟨.literal x d (rawBetween src t next), 1, []⟩
      | none => .ok ⟨.literal x .plain t.text, 0, []⟩
    | [] => .ok ⟨.literal x .plain t.text, 0, []⟩

/-- A zero in the place of something missing. -/
def placeholder : Expr := .literal 0 .plain ""

/-- A pair of parentheses with nothing between them. -/
def emptyGroup : Expr := .literal 0 .plain "()"

/-- The problem that no amount follows a symbol. -/
def withoutAmount (symbol : Token) : Parsed Expr :=
  ⟨placeholder, 0, [.ofSyntax (.missingAmount symbol.text) symbol.pos]⟩

/-- The number `t` as the amount of a symbol, `used` tokens after it. -/
def symbolAmount (src : Source) (symbol : Token) (negative : Bool) (t : Token) (used : Nat) :
    Outcome Expr :=
  match amountOf t.text with
  | .error fault => .error fault
  | .ok x =>
    let x := if negative then -x else x
    match Denomination.ofSymbol? symbol.text with
    | some d => .ok ⟨.literal x d (rawBetween src symbol t), used, []⟩
    | none =>
      .ok ⟨.literal x .plain t.text, used, [.ofSyntax (.unknownSymbol symbol.text) symbol.pos]⟩

/-- What follows a symbol: a number, perhaps with a minus sign. A minus sign without a number after
it does not count. -/
def parseSymbol (src : Source) (symbol : Token) (ts : List Token) : Outcome Expr :=
  match ts with
  | first :: rest =>
    if first.kind == .number then symbolAmount src symbol false first 1
    else
      match rest with
      | second :: _ =>
        if first.kind == .minus && second.kind == .number then
          symbolAmount src symbol true second 2
        else .ok (withoutAmount symbol)
      | [] => .ok (withoutAmount symbol)
  | [] => .ok (withoutAmount symbol)

/-- The target of a conversion. -/
def parseTarget (src : Source) (ts : List Token) : Parsed String :=
  match ts with
  | t :: _ =>
    if t.kind == .word || t.kind.isSymbol then ⟨t.text, 1, []⟩
    else ⟨"", 0, [.ofSyntax .missingTarget t.pos]⟩
  | [] => ⟨"", 0, [.ofSyntax .missingTarget src.endPos]⟩

/-- A word as a name. The names of the previous result are one. -/
def nameExpr (word : String) : Expr :=
  if Text.lower word == previousName || Text.lower word == "ans" then .name previousName
  else .name word

/-- The closing parenthesis, or the problem that there is none; `value` is what it closes. -/
def parseClosing (src : Source) (cause : SyntaxProblem) (ts : List Token) (value : α) : Parsed α :=
  if startsWith .rightParen ts then ⟨value, 1, []⟩
  else ⟨value, 0, [.ofSyntax cause (posOf src ts)]⟩

/-- A percentage alone. -/
def parsePercent (t : Token) : Outcome Expr :=
  (fractionOf t.text).map fun x => ⟨.literal x .percent t.text, 0, []⟩

/-- A percentage of a base, one token after it. -/
def percentOf (t : Token) (base : Outcome Expr) : Outcome Expr :=
  match fractionOf t.text, base with
  | .error fault, _ => .error fault
  | .ok _, .error fault => .error fault
  | .ok x, .ok e => .ok (e.behind 1 [] (.percentOf x t.text))

/-- What an operand that begins with `t` is, as far as that can be told without reading another
expression. -/
def parseSimple (src : Source) (t : Token) (ts : List Token) : Outcome Expr :=
  if t.kind == .number then parseNumber src t ts
  else if t.kind == .percent then parsePercent t
  else if t.kind.isSymbol then parseSymbol src t ts
  else if t.kind == .word then .ok ⟨nameExpr t.text, 0, []⟩
  else .ok ⟨placeholder, 0, [.ofSyntax (.unexpectedToken t.text) t.pos]⟩

/-- The tail of what is left is shorter than all. -/
theorem length_lt_of_drop {ts more : List α} {t : α} {n : Nat} (h : ts.drop n = t :: more) :
    more.length < ts.length := by
  have := congrArg List.length h
  simp only [List.length_drop, List.length_cons] at this
  omega

mutual

/-- An expression: operators and operands, and a conversion of all of it. -/
def parseExpression (src : Source) (ts : List Token) : Outcome Expr :=
  match parseOperators src 1 ts with
  | .error fault => .error fault
  | .ok left =>
    let rest := ts.drop left.used
    if startsWith .inWord rest then
      .ok ((parseTarget src (rest.drop 1)).behind (left.used + 1) left.problems
        (.conversion left.value))
    else .ok left
termination_by (ts.length, 3)

/-- An operand and the operators after it that bind at least as close as `least`. -/
def parseOperators (src : Source) (least : Nat) (ts : List Token) : Outcome Expr :=
  match parseOperand src ts with
  | .error fault => .error fault
  | .ok left =>
    match climb src least left.value (ts.drop left.used) with
    | .error fault => .error fault
    | .ok all => .ok (all.behind left.used left.problems id)
termination_by (ts.length, 2)
decreasing_by
  · exact Prod.Lex.right _ (by decide)
  · simp only [List.length_drop, Prod.lex_def]; omega

/-- The operators after `left` that bind at least as close as `least`, with their right operands. -/
def climb (src : Source) (least : Nat) (left : Expr) (ts : List Token) : Outcome Expr :=
  match ts with
  | [] => .ok ⟨left, 0, []⟩
  | t :: rest =>
    match binaryOp? t.kind with
    | none => .ok ⟨left, 0, []⟩
    | some op =>
      if op.precedence < least then .ok ⟨left, 0, []⟩
      else
        match parseOperators src op.rightPrecedence rest with
        | .error fault => .error fault
        | .ok right =>
          match climb src least (.binary left op right.value) (rest.drop right.used) with
          | .error fault => .error fault
          | .ok all => .ok (all.behind (right.used + 1) right.problems id)
termination_by (ts.length, 1)

/-- An operand with the signs in front of it. -/
def parseOperand (src : Source) (ts : List Token) : Outcome Expr :=
  match ts with
  | [] => .ok ⟨placeholder, 0, [.ofSyntax .unexpectedEnd src.endPos]⟩
  | t :: rest =>
    match signOp? t.kind with
    | some sign =>
      match parseOperand src rest with
      | .error fault => .error fault
      | .ok e => .ok (e.behind 1 [] (.signed sign))
    | none =>
      match parsePrimary src t rest with
      | .error fault => .error fault
      | .ok e => .ok (e.behind 1 [] id)
termination_by (ts.length, 1)

/-- An operand that begins with the token `t`, which is no sign. -/
def parsePrimary (src : Source) (t : Token) (ts : List Token) : Outcome Expr :=
  if t.kind == .leftParen then
    if startsWith .rightParen ts then .ok ⟨emptyGroup, 1, []⟩
    else
      match parseExpression src ts with
      | .error fault => .error fault
      | .ok e =>
        .ok ((parseClosing src .unclosedGroup (ts.drop e.used) (.group e.value)).behind
          e.used e.problems id)
  else
    match ts with
    | u :: rest =>
      if t.kind == .percent && u.kind == .ofWord then percentOf t (parseOperand src rest)
      else if t.kind == .word && u.kind == .leftParen then
        match parseCall src t.text rest with
        | .error fault => .error fault
        | .ok e => .ok (e.behind 1 [] id)
      else parseSimple src t ts
    | [] => parseSimple src t ts
termination_by (ts.length, 5)

/-- The arguments of a call after its opening parenthesis. -/
def parseCall (src : Source) (function : String) (ts : List Token) : Outcome Expr :=
  if startsWith .rightParen ts then .ok ⟨.call function [], 1, []⟩
  else
    match parseArgs src ts with
    | .error fault => .error fault
    | .ok args =>
      let closing := parseClosing src (.unclosedCall function) (ts.drop args.used)
        (.call function args.value)
      .ok (closing.behind args.used args.problems id)
termination_by (ts.length, 5)

/-- Arguments with commas between them, at least one. -/
def parseArgs (src : Source) (ts : List Token) : Outcome (List Expr) :=
  match parseExpression src ts with
  | .error fault => .error fault
  | .ok first =>
    match _h : ts.drop first.used with
    | t :: more =>
      if t.kind == .comma then
        match parseArgs src more with
        | .error fault => .error fault
        | .ok others => .ok (others.behind (first.used + 1) first.problems (first.value :: ·))
      else .ok ⟨[first.value], first.used, first.problems⟩
    | [] => .ok ⟨[first.value], first.used, first.problems⟩
termination_by (ts.length, 4)
decreasing_by
  · exact Prod.Lex.right _ (by decide)
  · exact Prod.Lex.left _ _ (length_lt_of_drop _h)

end

/-- What a line with at least one token says. -/
def parseStatement (src : Source) (ts : List Token) : Outcome Statement :=
  match ts with
  | t :: rest =>
    if t.kind == .word && startsWith .equals rest then
      (parseExpression src (rest.drop 1)).map (·.behind 2 [] (.assign t.text))
    else
      match binaryOp? t.kind with
      | some op => (parseExpression src rest).map (·.behind 1 [] (.expr <| .resume op ·))
      | none =>
        if t.kind == .inWord then
          .ok ((parseTarget src rest).behind 1 [] (.expr <| .resumeConversion ·))
        else (parseExpression src ts).map (·.behind 0 [] .expr)
  | [] => (parseExpression src ts).map (·.behind 0 [] .expr)

/-- The place of the mark of the end. -/
def endOf (tokens : List Token) : Nat :=
  ((tokens.find? (·.kind == .finish)).map (·.pos)).getD 0

/-- The tokens that the parser looks at. -/
def body (tokens : List Token) : List Token :=
  tokens.filter fun t => t.kind != .comment && t.kind != .newline && t.kind != .finish

/-- The problems with characters that begin no token. -/
def strayProblems (ts : List Token) : List Diagnostic :=
  (ts.filter (·.kind == .stray)).map fun t => .ofSyntax (.strayCharacter t.text) t.pos

/-- The text of the last comment among tokens. -/
def lastComment? (tokens : List Token) : Option String :=
  ((tokens.filter (·.kind == .comment)).getLast?).map (·.text)

/-- A line from its tokens, with the problems met; `raw` is its text, where that is known. -/
def parseTokens (raw : String) (tokens : List Token) : Except Fault (Line × List Diagnostic) :=
  let comment := lastComment? tokens
  let ts := body tokens
  match ts with
  | [] =>
    let statement := match comment with
      | some text => .comment text
      | none => .empty
    .ok (⟨statement, comment, raw⟩, [])
  | _ :: _ =>
    let src : Source := ⟨if raw.isEmpty then none else some raw.toList, endOf tokens⟩
    (parseStatement src ts).map fun p =>
      (⟨p.value, comment, raw⟩, strayProblems ts ++ p.problems)

end Parser

/-- The tree of a line and the problems with its form. -/
def Line.parse (text : String) : Except Fault (Line × List Diagnostic) :=
  Parser.parseTokens text (Token.ofText text)

/-- The trees of the lines of a document, problems with the number of their line. -/
def Line.parseAll (text : String) : Except Fault (List (Line × List Diagnostic)) :=
  (Text.lines text).zipIdx.mapM fun (line, i) =>
    (Line.parse line).map fun (tree, problems) => (tree, problems.map (·.inLine (some (i + 1))))

/-- The tree of a bare expression, without assignment or continuation; nothing for a text without
tokens. -/
def Expr.parse (text : String) : Except Fault (Option Expr × List Diagnostic) :=
  let tokens := Token.ofText text
  let ts := Parser.body tokens
  if ts.isEmpty then .ok (none, [])
  else
    (Parser.parseExpression ⟨some text.toList, Parser.endOf tokens⟩ ts).map fun p =>
      (some p.value, p.problems)

end LineCalc
