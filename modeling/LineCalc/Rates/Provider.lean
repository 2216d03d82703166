import LineCalc.Rates.Cache

/-!
# Rate providers

Two services quote rates: one for currencies and one for tokens. A provider tells what to ask for
and reads the answer. An answer that reports failure, or that never came, gives no quotes, and the
cache keeps those that it has; an answer of the wrong shape is a fault.
-/

namespace LineCalc

/-- A service that quotes rates, with the key of the account there, if there is one. -/
inductive Provider
  | currencies (key : Option String)
  | tokens (key : Option String)

/-- A request to a service. -/
structure QuoteRequest where
  url : String
  params : Option (List (String × String))
  headers : Option (List (String × String))

/-- What came of a request. -/
inductive Reply
  | failed
  | payload (j : Json)

/-- The seconds that an answer is waited for. -/
def replyTimeout : Float := 10

namespace Provider

/-- Both services, without an account. -/
def all : List Provider := [.currencies none, .tokens none]

/-- A key that is not empty. -/
def usableKey? (key : Option String) : Option String := key.filter (!·.isEmpty)

/-- The names of the tokens at their service, in order. -/
def tokenNames : List String :=
  (Crypto.all.map (·.entry.priceId)).mergeSort (fun a b => a ≤ b)

/-- The request to a service. -/
def request : Provider → QuoteRequest
  | .currencies key => {
      url := match usableKey? key with
        | some k => "https://v6.exchangerate-api.com/v6/" ++ k ++ "/latest/USD"
        | none => "https://open.er-api.com/v6/latest/USD"
      params := none
      headers := none }
  | .tokens key => {
      url := "https://api.coingecko.com/api/v3/simple/price"
      params := some [("ids", ",".intercalate tokenNames), ("vs_currencies", "usd")]
      headers := some ((usableKey? key).toList.map fun k => ("x-cg-demo-api-key", k)) }

/-- A positive number; other values are no prices. -/
def positive? : Json → Except Fault (Option Float)
  | .bool b => .ok (if b then some 1 else none)
  | .integer n => if n > 0 then (doubleOfInteger n).map some else .ok none
  | .decimal x => .ok (if x > 0 then some x else none)
  | .null | .string _ | .array _ | .object _ => .ok none

/-- The members of an object where nothing else will do. -/
def requireMembers (j : Json) : Except Fault (List (String × Json)) :=
  match j with
  | .object ms => .ok ms
  | _ => .error .wrongShape

/-- The first of some members that is there and counts as true. -/
def firstTruthy? (members : List (String × Json)) (keys : List String) : Option Json :=
  keys.findSome? fun key => (members.lookup key).filter (·.truthy)

/-- The quotes of currencies among some members. Tokens and metals are left to others. -/
def currencyQuotes : List (String × Json) → Quotes → Except Fault Quotes
  | [], found => .ok found
  | (code, rate) :: rest, found => do
    let code := Text.upper code
    if isDollarPriced code then currencyQuotes rest found
    else match ← positive? rate with
      | some x => currencyQuotes rest (found.set code x)
      | none => currencyQuotes rest found

/-- The quotes of the tokens that go by known names, from objects with a price in dollars. -/
def tokenQuotes : List (String × Json) → Quotes → Except Fault Quotes
  | [], found => .ok found
  | (name, prices) :: rest, found => do
    match Crypto.ofPriceId? name, prices.get? "usd" with
    | some token, some price => match ← positive? price with
      | some x => tokenQuotes rest (found.set token.code x)
      | none => tokenQuotes rest found
    | _, _ => tokenQuotes rest found

/-- The quotes in an answer, if it has any to give. -/
def quotes (p : Provider) : Reply → Except Fault (Option Quotes)
  | .failed => .ok none
  | .payload j => do
    let members ← requireMembers j
    match p with
    | .currencies _ =>
      match members.lookup "result" with
      | some (.string "success") =>
        match firstTruthy? members ["rates", "conversion_rates"] with
        | none => return some []
        | some rates => some <$> currencyQuotes (← requireMembers rates) []
      | _ => return none
    | .tokens _ =>
      let found ← tokenQuotes members []
      return if found.isEmpty then none else some found

end Provider

/-- The quotes of a cache under those of some answers, if one of these has any. -/
def mergedQuotes (old : Quotes) : List (Provider × Reply) → Except Fault (Option Quotes)
  | [] => .ok none
  | (p, reply) :: rest => do
    match ← p.quotes reply with
    | none | some [] => mergedQuotes old rest
    | some new =>
      let merged := old.merge new
      return some ((← mergedQuotes merged rest).getD merged)

/-- Takes in the answers of some providers at once. Without quotes among them nothing changes. -/
def RateCache.refresh (c : RateCache) (replies : List (Provider × Reply)) (now : Float) :
    Except Fault (Option RateCache) := do
  match ← mergedQuotes c.quotes replies with
  | none => return none
  | some quotes =>
    (c.update (quotes.map fun (code, rate) => (code, .decimal rate)) now).map some

end LineCalc
