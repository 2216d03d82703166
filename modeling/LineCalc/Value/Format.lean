import LineCalc.Decimal.Fixed
import LineCalc.Fault
import LineCalc.Json.Basic
import LineCalc.Value

/-!
# Values as text

A plain amount is shown with as few decimals as it needs: none if it is whole, else at most the
precision, and at least four below one and six below a hundredth, without zeros at the end. Money
always has two decimals, and a token is shown at its own precision at least.
-/

namespace LineCalc

/-- Below this an amount that is whole is shown as an integer. -/
def wholeLimit : Float := 1e15

/-- The decimals that an amount is rounded to. -/
def decimalsFor (n : Float) (precision : Nat) : Nat :=
  if n.abs ≥ 1 then precision
  else if n.abs ≥ 0.01 then max precision 4
  else max precision 6

/-- Without zeros after the point, and without a point at the end. -/
def trimDecimals (cs : List Char) : List Char :=
  if cs.contains '.' then
    ((cs.reverse.dropWhile (· == '0')).dropWhile (· == '.')).reverse
  else cs

/-- A plain amount. -/
def formatNumber (n : Float) (precision : Nat) : String :=
  if n.isNaN then "NaN"
  else if n.isInf then if n < 0 then "-Inf" else "Inf"
  else if Decimal.isWhole n && n.abs < wholeLimit then
    toString ((Decimal.truncate? n).getD 0)
  else
    let text := String.ofList (trimDecimals (Decimal.fixedText n (decimalsFor n precision)).toList)
    if text == "-0" || text == "" then "0" else text

/-- Money: two decimals, the sign in front, the symbol on its side. -/
def formatMoney (n : Float) (c : Currency) : String :=
  let sign := if n < 0 then "-" else ""
  let amount := Decimal.fixedText n.abs 2
  if c.entry.symbolAfter then sign ++ amount ++ c.symbol else sign ++ c.symbol ++ amount

/-- Tokens: with the symbol in front, or the code behind where there is none. -/
def formatCrypto (n : Float) (k : Crypto) (precision : Nat) : String :=
  let amount := formatNumber n (max precision k.entry.decimals)
  match k.entry.symbol with
  | some symbol => symbol ++ amount
  | none => amount ++ " " ++ k.code

/-- An amount of some denomination. -/
def formatAmount (n : Float) (precision : Nat) : Denomination → String
  | .plain => formatNumber n precision
  | .percent => formatNumber (n * 100) precision ++ "%"
  | .currency c => formatMoney n c
  | .unit u => formatNumber n precision ++ " " ++ u.code
  | .metal m => formatNumber n precision ++ " " ++ m.code
  | .crypto k => formatCrypto n k precision

/-- The text of a value. -/
def Value.format (v : Value) (precision : Nat) : String :=
  match v with
  | .empty => ""
  | .error p => "Error: " ++ p.message
  | .amount n d => formatAmount n precision d

/-- The precision of a new session. -/
def defaultPrecision : Nat := 2

/-- The highest precision. -/
def maxPrecision : Nat := 15

/-- The members that describe a value to a client, shown as `shown`. -/
def Value.describe (v : Value) (shown : String) : List (String × Json) :=
  [("kind", .string v.kind.label), ("display", .string shown)] ++
    match v with
    | .empty => []
    | .error p => [("error", .string p.message), ("error_kind", .string p.kind.tag)]
    | .amount n d =>
      ("value", .decimal n) :: (d.code?.map fun code => ("code", Json.string code)).toList

end LineCalc
