import LineCalc.Catalog.Denomination
import LineCalc.Decimal.Integer
import LineCalc.Decimal.Numeral
import LineCalc.Entries
import LineCalc.Json.Basic
import LineCalc.Rates.Fallback
import LineCalc.Rates.Table
import LineCalc.Value

/-!
# The rate cache

Exchange rates with the time of their last update. Rates come in singly, for a pair of codes, or
all together as quotes against the dollar, which replace the whole table. Rates are fresh for a
limited time after an update; fallback rates never are.
-/

namespace LineCalc

/-- The code that all quotes are against. -/
def baseCode : String := "USD"

/-- The seconds that rates stay fresh, if nothing else is set. -/
def defaultLifetime : Float := 3600

/-- Rates of codes against the base. -/
abbrev Quotes := Entries String Float

/-- Exchange rates and what is known of them. -/
structure RateCache where
  /-- The seconds that rates stay fresh. -/
  lifetime : Float := defaultLifetime
  table : RateTable := []
  /-- The quotes that the table was made from. -/
  quotes : Quotes := []
  /-- The time of the last update. -/
  updated : Option Float := none

/-! ## Quotes -/

/-- The number in a quote, if it has one: texts are read as numerals. -/
def quotedRate : Json → Except Fault (Option Float)
  | .bool b => .ok (some (if b then 1 else 0))
  | .integer n => (doubleOfInteger n).map some
  | .decimal x => .ok (some x)
  | .string s => .ok (Decimal.readFloat? s)
  | .null | .array _ | .object _ => .ok none

/-- A quote counts if it is of another code than the base, finite and positive. -/
def isAdmissible (code : String) (rate : Float) : Bool :=
  code != baseCode && rate.isFinite && rate > 0

/-- The quotes that count, each under the upper case of its code. -/
def admissibleQuotes : List (String × Json) → Except Fault (List (String × Float))
  | [] => .ok []
  | (code, quote) :: rest => do
    let rate ← quotedRate quote
    let others ← admissibleQuotes rest
    let code := Text.upper code
    match rate with
    | some x => return if isAdmissible code x then (code, x) :: others else others
    | none => return others

/-- Stores a quote in the direction that it is meant in. -/
def RateTable.storeQuote (t : RateTable) (code : String) (rate : Float) : RateTable :=
  if isDollarPriced code then t.store code baseCode rate else t.store baseCode code rate

/-- The table that quotes make. -/
def RateTable.ofQuotes (quotes : List (String × Float)) : RateTable :=
  quotes.foldl (fun t (code, rate) => t.storeQuote code rate) []

/-- The quotes among pairs of any two values: a pair whose key is no text does not count, and of a
repeated key the last value does. A list or an object cannot be a key. -/
def quotesOfPairs (pairs : List (Json × Json)) : Except Fault (List (String × Json)) := do
  let keyed ← pairs.filterMapM fun (key, quote) => match key with
    | .string code => .ok (some (code, quote))
    | .array _ | .object _ => .error .wrongType
    | _ => .ok none
  return Entries.ofPairs keyed

namespace RateCache

/-! ## Changes -/

/-- A cache without rates. -/
def empty (lifetime : Float) : RateCache := { lifetime }

/-- Replaces the table by one of the given quotes. -/
def setQuotes (c : RateCache) (quotes : List (String × Float)) : RateCache :=
  { c with table := .ofQuotes quotes, quotes := Entries.ofPairs quotes }

/-- A cache of the fallback rates, which are not fresh. -/
def withFallback (lifetime : Float) : RateCache := (empty lifetime).setQuotes fallbackQuotes

/-- Replaces the table by one of fresh quotes. -/
def update (c : RateCache) (quotes : List (String × Json)) (time : Float) :
    Except Fault RateCache :=
  (admissibleQuotes quotes).map fun quotes => { c.setQuotes quotes with updated := some time }

/-- Sets the rate of one pair. The rate of a code to itself cannot be changed. -/
def setRate (c : RateCache) (source target : String) (rate : Float) : Except Fault RateCache :=
  if !rate.isFinite || rate < 0 then .error (.invalidRate rate source target)
  else
    let source := Text.upper source
    let target := Text.upper target
    .ok (if source = target then c else { c with table := c.table.store source target rate })

/-- Forgets all rates and the time of the last update. -/
def clear (c : RateCache) : RateCache := empty c.lifetime

/-! ## Freshness -/

/-- The seconds since the last update. -/
def age (c : RateCache) (now : Float) : Option Float := c.updated.map (now - ·)

/-- The rates are too old, or were never updated. -/
def isExpired (c : RateCache) (now : Float) : Bool :=
  match c.age now with
  | none => true
  | some age => age > c.lifetime

end RateCache

/-! ## Conversions -/

/-- A value in what a code stands for. Only money, metals and tokens are converted. -/
def RateTable.convertValue? (t : RateTable) (v : Value) (target : String) : Option Value := do
  if !v.isRated then none
  let d ← Denomination.ofRateCode? target
  let n ← t.convert? v.magnitude v.code d.code
  return .amount n d

end LineCalc
