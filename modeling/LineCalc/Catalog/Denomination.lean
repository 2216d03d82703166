import LineCalc.Catalog.Crypto
import LineCalc.Catalog.Currency
import LineCalc.Catalog.MeasureUnit
import LineCalc.Catalog.Metal

/-!
# Denominations

What an amount counts: nothing (a plain number), hundredths (a percentage), money of some currency,
tokens, ounces of a metal, or units of measure. Where a name or a code could mean several, the
order of the look-up decides.
-/

namespace LineCalc

/-- What an amount counts. -/
inductive Denomination
  | plain
  | percent
  | currency (c : Currency)
  | unit (u : MeasureUnit)
  | metal (m : Metal)
  | crypto (k : Crypto)
deriving DecidableEq, Repr

namespace Denomination

/-- The code of the currency, token, metal or unit; nothing for plain numbers and percentages. -/
def code? : Denomination → Option String
  | .plain | .percent => none
  | .currency c => some c.code
  | .unit u => some u.code
  | .metal m => some m.code
  | .crypto k => some k.code

/-- The code, empty for plain numbers and percentages. -/
def code (d : Denomination) : String := d.code?.getD ""

/-- Amounts of it are converted by exchange rates. -/
def isRated : Denomination → Bool
  | .currency _ | .metal _ | .crypto _ => true
  | .plain | .percent | .unit _ => false

/-- Which of two combined denominations the result has: the higher rank. -/
def rank : Denomination → Nat
  | .plain => 1
  | .percent => 2
  | .unit _ => 3
  | .metal _ => 4
  | .crypto _ => 5
  | .currency _ => 6

/-- The meaning of a word after an amount, or of a conversion target: a currency before a token
before a metal before a unit. -/
def ofName? (name : String) : Option Denomination :=
  (Currency.ofName? name).map .currency
    <|> (Crypto.ofName? name).map .crypto
    <|> (Metal.ofName? name).map .metal
    <|> (MeasureUnit.ofName? name).map .unit

/-- The meaning of a symbol beside an amount. -/
def ofSymbol? (symbol : String) : Option Denomination :=
  (Currency.ofSymbol? symbol).map .currency <|> (Crypto.ofSymbol? symbol).map .crypto

/-- What has an exchange rate under this code: a token before a metal before a currency. -/
def ofRateCode? (code : String) : Option Denomination :=
  (Crypto.ofCode? code).map .crypto
    <|> (Metal.ofCode? code).map .metal
    <|> (Currency.ofAnyCode? code).map .currency

end Denomination

/-- A quote under this code reads "one is worth so many dollars"; other quotes read "one dollar is
worth so many". -/
def isDollarPriced (code : String) : Bool :=
  (Crypto.ofCode? code).isSome || (Metal.ofCode? code).isSome

end LineCalc
