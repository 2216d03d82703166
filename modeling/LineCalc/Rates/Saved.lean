import LineCalc.Json.Reader
import LineCalc.Json.Writer
import LineCalc.Rates.Cache
import LineCalc.Time.Timestamp

/-!
# Saved rates

The quotes of a cache are saved as a JSON object with their time and the code that they are
against. Saved quotes are taken back only while they are fresh.
-/

namespace LineCalc

/-- The saved form of the quotes of a cache, dated to the start of time if they were never
updated. -/
def RateCache.saved (c : RateCache) : Except Fault Json := do
  let time ← Time.write (c.updated.getD 0)
  return .object [
    ("timestamp", .string time),
    ("rates", .object (c.quotes.map fun (code, rate) => (code, .decimal rate))),
    ("baseCurrency", .string baseCode)]

/-- The text of the saved quotes. -/
def RateCache.savedText (c : RateCache) : Except Fault String := c.saved.map Json.indented

/-- A text that is read as JSON. One that is malformed counts as none; an integer with too many
digits is a fault. -/
def readSaved? (text : String) : Except Fault (Option Json) :=
  match Json.read text with
  | .ok j => .ok (some j)
  | .error .malformed => .ok none
  | .error (.integerTooLong n) => .error (.integerTooLong n)

/-- The time of saved quotes. -/
def savedTime? (j : Json) : Option Float :=
  match j.get? "timestamp" with
  | some (.string s) => Time.read? s
  | _ => none

/-- The quotes are against the base code, which is assumed if nothing is said of it. -/
def hasKnownBase (j : Json) : Bool :=
  match j.get? "baseCurrency" <|> j.get? "base_currency" with
  | none => true
  | some (.string code) => code == baseCode
  | some _ => false

/-- The time and the quotes of a saved object that is well formed. -/
def savedQuotes? (j : Json) : Option (Float × List (String × Json)) := do
  let time ← savedTime? j
  let rates ← (← j.get? "rates").members?
  if hasKnownBase j then some (time, rates) else none

/-- Takes back saved quotes, unless there is something wrong with them or they are too old. -/
def RateCache.load (c : RateCache) (text : String) (now : Float) :
    Except Fault (Option RateCache) := do
  match (← readSaved? text).bind savedQuotes? with
  | none => return none
  | some (time, quotes) =>
    if now - time > c.lifetime then return none
    else (c.update quotes time).map some

/-- A text holds saved quotes that are fresh, judged by their time alone. -/
def RateCache.isFreshText (c : RateCache) (text : String) (now : Float) : Except Fault Bool := do
  match (← readSaved? text).bind savedTime? with
  | none => return false
  | some time => return now - time ≤ c.lifetime

/-- What is told of a cache. -/
structure CacheStats where
  pairs : Nat
  codes : Nat
  /-- The written time of the last update. -/
  updated : Option String
  expired : Bool

/-- The state of a cache at a time. -/
def RateCache.stats (c : RateCache) (now : Float) : Except Fault CacheStats := do
  let updated ← c.updated.mapM Time.write
  return {
    pairs := c.table.length
    codes := c.table.codes.length
    updated
    expired := c.isExpired now }

end LineCalc
