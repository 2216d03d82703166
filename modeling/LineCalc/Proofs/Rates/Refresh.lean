import LineCalc.Proofs.Rates.Quotes
import LineCalc.Proofs.Rates.Saved
import LineCalc.Proofs.Text.Case
import LineCalc.Rates.Provider

/-!
# Refreshing the rates

The quotes of the providers are put over those of the cache before it is known whether they count. A
provider takes every positive number for a quote, an infinite one as well. An infinite quote is left
out afterwards, and so is the quote that it was put over.

Results:
1. `Provider.quotes_eq_ofPairs`: the quotes that a provider takes from a payload.
2. `RateCache.hasIngested_afterAll`: the quotes of a cache after any actions come from an ingestion.
3. `RateCache.refresh_outcome`: what comes of the answers of both providers, and each quote after it.
-/

namespace LineCalc

/-! ## Payloads -/

namespace Provider

/-- The positive number in a payload, if it is one and a double. -/
def price? (j : Json) : Option Float := (positive? j).toOption.join

/-- The quote that a member of the rates of currencies stands for. -/
def currencyQuote? (member : String × Json) : Option (String × Float) :=
  if isDollarPriced (Text.upper member.1) then none
  else (price? member.2).map (Text.upper member.1, ·)

/-- The quote that a member of the prices of tokens stands for. -/
def tokenQuote? (member : String × Json) : Option (String × Float) := do
  let token ← Crypto.ofPriceId? member.1
  let price ← member.2.get? "usd"
  (price? price).map (token.code, ·)

/-- The members of an answer on currencies report success. -/
def reportSuccess (members : List (String × Json)) : Bool :=
  match members.lookup "result" with
  | some (.string "success") => true
  | _ => false

/-- The quotes in an answer, one after the other. -/
def offers : Provider → Reply → List (String × Float)
  | _, .failed => []
  | .currencies _, .payload j =>
    let members := j.members?.getD []
    if reportSuccess members then
      let rates := (firstTruthy? members ["rates", "conversion_rates"]).bind (·.members?)
      (rates.getD []).filterMap currencyQuote?
    else []
  | .tokens _, .payload j => (j.members?.getD []).filterMap tokenQuote?

variable {p : Provider} {reply : Reply} {members : List (String × Json)} {found quotes : Quotes}
variable {code : String} {x : Float} {j : Json}

theorem pos_of_price? (price : price? j = some x) : 0 < x := by
  cases j with
  | null | string | array | object => cases price
  | bool b =>
    cases b with
    | false => cases price
    | true =>
      cases price
      exact rfl
  | integer n =>
    have price : (if n > 0 then (doubleOfInteger n).map some else .ok none).toOption.join = some x :=
      price
    split at price
    · next pos =>
      unfold doubleOfInteger at price
      dsimp only at price
      split at price
      · cases price
      · cases price
        exact Decimal.pos_ofInt pos
    · cases price
  | decimal y =>
    have price : (if y > 0 then some y else none) = some x := price
    split at price
    · next pos =>
      cases price
      exact pos
    · cases price

theorem positive?_eq {price : Option Float} (read : positive? j = .ok price) : price = price? j := by
  rw [price?, read]
  rfl

/-- The quotes of currencies are put over those found before. -/
theorem currencyQuotes_eq (read : currencyQuotes members found = .ok quotes) :
    quotes = found.merge (members.filterMap currencyQuote?) := by
  induction members generalizing found with
  | nil =>
    cases read
    rfl
  | cons member rest ih =>
    obtain ⟨key, value⟩ := member
    rw [currencyQuotes] at read
    rw [List.filterMap_cons, currencyQuote?]
    split at read
    · next dollarPriced =>
      rw [if_pos dollarPriced]
      exact ih read
    · next other =>
      rw [if_neg other]
      obtain ⟨price, eq, read⟩ := bind_ok_iff.mp read
      rw [← positive?_eq eq]
      cases price with
      | none => exact ih read
      | some x => exact ih read

/-- The quotes of tokens are put over those found before. -/
theorem tokenQuotes_eq (read : tokenQuotes members found = .ok quotes) :
    quotes = found.merge (members.filterMap tokenQuote?) := by
  induction members generalizing found with
  | nil =>
    cases read
    rfl
  | cons member rest ih =>
    obtain ⟨name, prices⟩ := member
    rw [tokenQuotes] at read
    rw [List.filterMap_cons]
    split at read
    · next token price known listed =>
      obtain ⟨positive, eq, read⟩ := bind_ok_iff.mp read
      have quote : tokenQuote? (name, prices) = positive.map (token.code, ·) := by
        rw [tokenQuote?, known, listed, positive?_eq eq]
        rfl
      rw [quote]
      cases positive with
      | none => exact ih read
      | some x => exact ih read
    · next missing =>
      have none : tokenQuote? (name, prices) = none := by
        rw [tokenQuote?]
        cases known : Crypto.ofPriceId? name with
        | none => rfl
        | some token =>
          cases listed : prices.get? "usd" with
          | none => rfl
          | some price => exact absurd listed (missing token price known)
      rw [none]
      exact ih read

theorem requireMembers_ok_iff : requireMembers j = .ok members ↔ j.members? = some members := by
  cases j <;> simp [requireMembers, Json.members?]

theorem reportSuccess_iff :
    reportSuccess members = true ↔ members.lookup "result" = some (.string "success") := by
  unfold reportSuccess
  split
  · next success => simp [success]
  · next other => exact iff_of_false Bool.false_ne_true other

/-- An answer on currencies: without success there are no quotes, and without rates none in it. -/
theorem quotes_currencies (key : Option String) (j : Json) :
    (currencies key).quotes (.payload j) = requireMembers j >>= fun members =>
      if reportSuccess members then
        match firstTruthy? members ["rates", "conversion_rates"] with
        | none => .ok (some [])
        | some rates => requireMembers rates >>= fun listed => (currencyQuotes listed []).map some
      else .ok none := by
  refine congrArg (requireMembers j >>= ·) (funext fun members => ?_)
  dsimp only
  split
  · next success =>
    rw [if_pos (reportSuccess_iff.mpr success)]
    rfl
  · next other =>
    rw [if_neg fun success => other (reportSuccess_iff.mp success)]
    rfl

/-- An answer on tokens: its quotes are given if any are found. -/
theorem quotes_tokens (key : Option String) (j : Json) :
    (tokens key).quotes (.payload j) = requireMembers j >>= fun members =>
      (tokenQuotes members []).map fun found => if found.isEmpty then none else some found := by
  refine congrArg (requireMembers j >>= ·) (funext fun members => ?_)
  dsimp only
  cases tokenQuotes members [] with
  | error => rfl
  | ok found => rfl

/-- Of the quotes in an answer the last one of a code counts. -/
theorem quotes_eq_ofPairs {fetched : Option Quotes} (read : p.quotes reply = .ok fetched) :
    fetched.getD [] = Entries.ofPairs (p.offers reply) := by
  cases reply with
  | failed =>
    cases read
    rfl
  | payload j =>
    cases p with
    | currencies key =>
      rw [quotes_currencies] at read
      obtain ⟨members, object, read⟩ := bind_ok_iff.mp read
      rw [offers, requireMembers_ok_iff.mp object, Option.getD_some]
      dsimp only
      split at read
      · next success =>
        rw [if_pos success]
        split at read
        · next none =>
          cases read
          rw [none]
          rfl
        · next rates given =>
          obtain ⟨listed, shape, read⟩ := bind_ok_iff.mp read
          obtain ⟨quotes, found, eq⟩ := map_ok_iff.mp read
          rw [← eq, given, Option.bind_some, requireMembers_ok_iff.mp shape]
          exact currencyQuotes_eq found
      · next other =>
        cases read
        rw [if_neg other]
        rfl
    | tokens key =>
      rw [quotes_tokens] at read
      obtain ⟨members, object, read⟩ := bind_ok_iff.mp read
      obtain ⟨quotes, found, eq⟩ := map_ok_iff.mp read
      rw [offers, requireMembers_ok_iff.mp object, Option.getD_some, ← eq]
      have same : quotes = Entries.ofPairs (members.filterMap tokenQuote?) := tokenQuotes_eq found
      rw [← same]
      cases quotes <;> rfl
/-- A provider gives positive quotes, under codes in upper case. -/
theorem mem_fetched {fetched : Option Quotes} (read : p.quotes reply = .ok fetched)
    {q : String × Float} (mem : q ∈ fetched.getD []) : q ∈ p.offers reply := by
  rw [quotes_eq_ofPairs read] at mem
  exact Entries.mem_ofPairs mem

theorem distinct_fetched {fetched : Option Quotes} (read : p.quotes reply = .ok fetched) :
    Entries.Distinct (fetched.getD []) := by
  rw [quotes_eq_ofPairs read]
  exact Entries.distinct_ofPairs _

theorem currencyQuote?_eq_some {member : String × Json} {q : String × Float}
    (quote : currencyQuote? member = some q) :
    Text.upper q.1 = q.1 ∧ 0 < q.2 ∧ isDollarPriced q.1 = false := by
  rw [currencyQuote?] at quote
  split at quote
  · cases quote
  · next other =>
    obtain ⟨x, price, eq⟩ := Option.map_eq_some_iff.mp quote
    cases eq
    exact ⟨Text.upper_upper _, pos_of_price? price, (Bool.not_eq_true _).mp other⟩

theorem tokenQuote?_eq_some {member : String × Json} {q : String × Float}
    (quote : tokenQuote? member = some q) :
    Text.upper q.1 = q.1 ∧ 0 < q.2 ∧ Metal.ofCode? q.1 = none := by
  have codes : ∀ token : Crypto, Text.upper token.code = token.code ∧
      Metal.ofCode? token.code = none := by
    intro token
    cases token <;> exact ⟨rfl, rfl⟩
  obtain ⟨token, -, quote⟩ := Option.bind_eq_some_iff.mp quote
  obtain ⟨price, -, quote⟩ := Option.bind_eq_some_iff.mp quote
  obtain ⟨x, positive, eq⟩ := Option.map_eq_some_iff.mp quote
  cases eq
  exact ⟨(codes token).1, pos_of_price? positive, (codes token).2⟩

theorem exists_of_mem_currencies {key : Option String} {q : String × Float}
    (mem : q ∈ (currencies key).offers reply) : ∃ member, currencyQuote? member = some q := by
  cases reply with
  | failed => cases mem
  | payload j =>
    rw [offers] at mem
    dsimp only at mem
    split at mem
    · obtain ⟨member, -, quote⟩ := List.mem_filterMap.mp mem
      exact ⟨member, quote⟩
    · cases mem

theorem exists_of_mem_tokens {key : Option String} {q : String × Float}
    (mem : q ∈ (tokens key).offers reply) : ∃ member, tokenQuote? member = some q := by
  cases reply with
  | failed => cases mem
  | payload j =>
    obtain ⟨member, -, quote⟩ := List.mem_filterMap.mp mem
    exact ⟨member, quote⟩

theorem not_dollarPriced_of_fetched {key : Option String} {fetched : Option Quotes}
    (read : (currencies key).quotes reply = .ok fetched) {q : String × Float}
    (mem : q ∈ fetched.getD []) : isDollarPriced q.1 = false := by
  obtain ⟨member, quote⟩ := exists_of_mem_currencies (mem_fetched read mem)
  exact (currencyQuote?_eq_some quote).2.2

theorem dollarPriced_of_fetched {key : Option String} {fetched : Option Quotes}
    (read : (tokens key).quotes reply = .ok fetched) {q : String × Float}
    (mem : q ∈ fetched.getD []) : isDollarPriced q.1 = true := by
  have codes : ∀ token : Crypto, isDollarPriced token.code = true := by
    intro token
    cases token <;> rfl
  obtain ⟨member, quote⟩ := exists_of_mem_tokens (mem_fetched read mem)
  obtain ⟨token, -, quote⟩ := Option.bind_eq_some_iff.mp quote
  obtain ⟨price, -, quote⟩ := Option.bind_eq_some_iff.mp quote
  obtain ⟨x, -, rfl⟩ := Option.map_eq_some_iff.mp quote
  exact codes token

/-- The quotes of currencies leave tokens and metals alone. -/
theorem lookup_currencies {key : Option String} {fetched : Option Quotes}
    (read : (currencies key).quotes reply = .ok fetched) (dollarPriced : isDollarPriced code = true) :
    (fetched.getD []).lookup code = none := by
  refine Option.eq_none_iff_forall_ne_some.mpr fun x found => ?_
  rw [not_dollarPriced_of_fetched read (Entries.mem_of_lookup found)] at dollarPriced
  cases dollarPriced

/-- The quotes of tokens leave metals alone. -/
theorem lookup_tokens {key : Option String} {fetched : Option Quotes}
    (read : (tokens key).quotes reply = .ok fetched) (metal : (Metal.ofCode? code).isSome = true) :
    (fetched.getD []).lookup code = none := by
  refine Option.eq_none_iff_forall_ne_some.mpr ?_
  intro x found
  have mem := (distinct_fetched read).mem_iff_lookup.mpr found
  obtain ⟨member, quote⟩ := exists_of_mem_tokens (mem_fetched read mem)
  rw [(tokenQuote?_eq_some quote).2.2] at metal
  cases metal

/-- A provider gives positive quotes only, under codes in upper case. -/
theorem upper_and_pos_of_fetched {fetched : Option Quotes} (read : p.quotes reply = .ok fetched)
    {q : String × Float} (mem : q ∈ fetched.getD []) : Text.upper q.1 = q.1 ∧ 0 < q.2 := by
  have offered := mem_fetched read mem
  cases p with
  | currencies key =>
    obtain ⟨member, quote⟩ := exists_of_mem_currencies offered
    exact ⟨(currencyQuote?_eq_some quote).1, (currencyQuote?_eq_some quote).2.1⟩
  | tokens key =>
    obtain ⟨member, quote⟩ := exists_of_mem_tokens offered
    exact ⟨(tokenQuote?_eq_some quote).1, (tokenQuote?_eq_some quote).2.1⟩

end Provider

/-! ## Ingested quotes -/

/-- An entry whose key is in upper case and whose value is an admissible rate counts as it is. -/
theorem countedQuote?_decimal {code : String} {rate : Float} (upper : Text.upper code = code) :
    countedQuote? (code, .decimal rate) =
      if isAdmissible code rate then some (code, rate) else none := by
  rw [countedQuote?, upper]
  rfl

/-- Of quotes under codes in upper case those count that are admissible. -/
theorem filterMap_countedQuote? {quotes : Quotes} (upper : ∀ q ∈ quotes, Text.upper q.1 = q.1) :
    (quotes.map fun (code, rate) => (code, Json.decimal rate)).filterMap countedQuote? =
      quotes.filter fun q => isAdmissible q.1 q.2 := by
  induction quotes with
  | nil => rfl
  | cons q rest ih =>
    obtain ⟨head, tail⟩ := List.forall_mem_cons.mp upper
    rw [List.map_cons, List.filterMap_cons, countedQuote?_decimal head, List.filter_cons, ih tail]
    cases isAdmissible q.1 q.2 <;> rfl

namespace RateCache

/-- The quotes of a cache are those that count among some entries. -/
def HasIngested (c : RateCache) : Prop :=
  ∃ entries : List (String × Json), c.quotes = Entries.ofPairs (entries.filterMap countedQuote?)

variable {c c' : RateCache}

theorem hasIngested_of_update {entries : List (String × Json)} {time : Float}
    (updated : c.update entries time = .ok c') : c'.HasIngested := by
  obtain ⟨-, rfl⟩ := update_ok_iff.mp updated
  exact ⟨entries, rfl⟩

theorem hasIngested_of_empty (empty : c.quotes = []) : c.HasIngested := ⟨[], empty⟩

theorem hasIngested_new (lifetime : Float) (seeded : Bool) : (new lifetime seeded).HasIngested := by
  cases seeded with
  | false => exact hasIngested_of_empty rfl
  | true =>
    have upper : fallbackQuotes.all (fun q => Text.upper q.1 == q.1) = true := rfl
    have upper : ∀ q ∈ fallbackQuotes, Text.upper q.1 = q.1 := fun q mem =>
      eq_of_beq (List.all_eq_true.mp upper q mem)
    refine ⟨fallbackQuotes.map fun (code, rate) => (code, .decimal rate), ?_⟩
    rw [filterMap_countedQuote? upper,
      List.filter_eq_self.mpr fun q mem => isAdmissible_of_mem_fallbackQuotes q mem]
    rfl

theorem hasIngested_after (ingested : c.HasIngested) (a : RateAction) : (c.after a).HasIngested := by
  rw [after]
  split
  · next c' done =>
    cases a with
    | set source target rate =>
      rw [perform, setRate] at done
      split at done
      · cases done
      · cases done
        split
        · exact ingested
        · exact ingested
    | apply quotes time =>
      obtain ⟨entries, -, updated⟩ := bind_ok_iff.mp done
      exact hasIngested_of_update updated
    | clear =>
      cases done
      exact hasIngested_of_empty rfl
  · exact ingested

/-- After any actions on a new cache its quotes come from an ingestion. -/
theorem hasIngested_afterAll (lifetime : Float) (seeded : Bool) (actions : List RateAction) :
    ((new lifetime seeded).afterAll actions).HasIngested :=
  List.foldlRecOn actions after (hasIngested_new lifetime seeded) fun _ ingested a _ =>
    hasIngested_after ingested a

variable (ingested : c.HasIngested)

include ingested

theorem HasIngested.distinct : c.quotes.Distinct := by
  obtain ⟨entries, eq⟩ := ingested
  rw [eq]
  exact Entries.distinct_ofPairs _

theorem HasIngested.counted {q : String × Float} (mem : q ∈ c.quotes) :
    Text.upper q.1 = q.1 ∧ isAdmissible q.1 q.2 = true := by
  obtain ⟨entries, eq⟩ := ingested
  rw [eq] at mem
  have mem := Entries.mem_ofPairs mem
  obtain ⟨entry, -, counted⟩ := List.mem_filterMap.mp mem
  obtain ⟨code, admissible⟩ := countedQuote?_eq_some counted
  rw [code, Text.upper_upper]
  exact ⟨rfl, code ▸ admissible⟩

end RateCache

/-! ## Merged quotes -/

/-- The quote that two answers give a code, the second one first. -/
def newQuote? (rates prices : Option Quotes) (code : String) : Option Float :=
  ((prices.getD []).lookup code).or ((rates.getD []).lookup code)

section

variable {p p' : Provider} {reply reply' : Reply} {rates prices : Option Quotes} {old : Quotes}
variable (readRates : p.quotes reply = .ok rates) (readPrices : p'.quotes reply' = .ok prices)

include readRates readPrices

/-- The quotes of two answers are put over the old ones, if there are any. -/
theorem mergedQuotes_pair : mergedQuotes old [(p, reply), (p', reply')] =
    .ok (if rates.getD [] = [] ∧ prices.getD [] = [] then none
      else some ((old.merge (rates.getD [])).merge (prices.getD []))) := by
  have none (before : Quotes) : mergedQuotes before [(p', reply')] =
      .ok (if prices.getD [] = [] then none else some (before.merge (prices.getD []))) := by
    rw [mergedQuotes, readPrices]
    match prices with
    | none | some [] => rfl
    | some (q :: rest) => rfl
  rw [mergedQuotes, readRates]
  match rates with
  | Option.none | some [] =>
    refine (none old).trans ?_
    simp [Entries.merge]
  | some (q :: rest) =>
    show ((mergedQuotes (old.merge (q :: rest)) [(p', reply')]) >>= fun later =>
      Except.ok (some (later.getD (old.merge (q :: rest))))) = _
    rw [none]
    match prices with
    | Option.none | some [] => rfl
    | some (q' :: rest') => rfl

end

namespace RateCache

variable {c : RateCache}

/-- The outcome of taking in answers, and the cache after it. -/
def takeIn (c : RateCache) (replies : List (Provider × Reply)) (now : Float) :
    Except Fault Bool × RateCache :=
  match c.refresh replies now with
  | .ok (some refreshed) => (.ok true, refreshed)
  | .ok none => (.ok false, c)
  | .error f => (.error f, c)

section

variable {p p' : Provider} {reply reply' : Reply} {rates prices : Option Quotes}
variable (readRates : p.quotes reply = .ok rates) (readPrices : p'.quotes reply' = .ok prices)

include readRates readPrices

theorem takeIn_of_no_quotes (noRates : rates.getD [] = []) (noPrices : prices.getD [] = [])
    (now : Float) : c.takeIn [(p, reply), (p', reply')] now = (.ok false, c) := by
  rw [takeIn, refresh, mergedQuotes_pair readRates readPrices, if_pos ⟨noRates, noPrices⟩]
  rfl

theorem newQuote?_of_pos {code : String} {rate : Float}
    (new : newQuote? rates prices code = some rate) : 0 < rate := by
  rcases Option.or_eq_some_iff.mp new with found | ⟨-, found⟩
  · have mem := (Provider.distinct_fetched readPrices).mem_iff_lookup.mpr found
    exact (Provider.upper_and_pos_of_fetched readPrices mem).2
  · have mem := (Provider.distinct_fetched readRates).mem_iff_lookup.mpr found
    exact (Provider.upper_and_pos_of_fetched readRates mem).2

end

/-- Quotes that are doubles can always be taken in. -/
theorem update_decimals (c : RateCache) {quotes : Quotes}
    (upper : ∀ q ∈ quotes, Text.upper q.1 = q.1) (now : Float) :
    c.update (quotes.map fun (code, rate) => (code, .decimal rate)) now =
      .ok { c.setQuotes (quotes.filter fun q => isAdmissible q.1 q.2) with updated := some now } := by
  have small : ∀ q ∈ quotes.map fun (code, rate) => (code, Json.decimal rate), ¬q.2.IsHuge := by
    intro q mem
    obtain ⟨quote, -, rfl⟩ := List.mem_map.mp mem
    exact id
  rw [← filterMap_countedQuote? upper]
  exact update_ok_iff.mpr ⟨small, rfl⟩

section

variable {p p' : Provider} {reply reply' : Reply} {rates prices : Option Quotes}
variable (ingested : c.HasIngested)
variable (readRates : p.quotes reply = .ok rates) (readPrices : p'.quotes reply' = .ok prices)

include ingested readRates readPrices

/-- Where there are quotes, they are put over the old ones, and those that count are kept. -/
theorem takeIn_of_quotes (given : ¬(rates.getD [] = [] ∧ prices.getD [] = [])) (now : Float) :
    ∃ taken, c.takeIn [(p, reply), (p', reply')] now = (.ok true, taken) ∧ taken.HasIngested ∧
      ∀ code, taken.quotes.lookup code =
        ((newQuote? rates prices code).or (c.quotes.lookup code)).filter (isAdmissible code) := by
  let merged := (c.quotes.merge (rates.getD [])).merge (prices.getD [])
  have distinct : merged.Distinct := (ingested.distinct.merge _).merge _
  have upper : ∀ q ∈ merged, Text.upper q.1 = q.1 := by
    intro q mem
    rcases Entries.mem_merge mem with mem | mem
    · rcases Entries.mem_merge mem with mem | mem
      · exact (ingested.counted mem).1
      · exact (Provider.upper_and_pos_of_fetched readRates mem).1
    · exact (Provider.upper_and_pos_of_fetched readPrices mem).1
  have updated := c.update_decimals upper now
  refine ⟨_, ?_, hasIngested_of_update updated, ?_⟩
  · rw [takeIn, refresh, mergedQuotes_pair readRates readPrices, if_neg given]
    show (match (c.update (merged.map fun (code, rate) => (code, .decimal rate)) now).map
      some with | .ok (some refreshed) => _ | .ok none => _ | .error f => _) = _
    rw [updated]
    rfl
  · intro code
    have found : merged.lookup code =
        (newQuote? rates prices code).or (c.quotes.lookup code) := by
      rw [Entries.lookup_merge, Entries.lookup_merge,
        (Provider.distinct_fetched readRates).lookup_reverse,
        (Provider.distinct_fetched readPrices).lookup_reverse, newQuote?, Option.or_assoc]
    show (Entries.ofPairs (merged.filter fun q => isAdmissible q.1 q.2)).lookup code = _
    rw [Entries.ofPairs_of_distinct (distinct.filter _), distinct.lookup_filter, found]

end

/-- A new quote takes the place of the old one if it counts, and takes the old one away if not. -/
theorem filter_or_quote (ingested : c.HasIngested) (code : String) (new : Option Float) :
    (new.or (c.quotes.lookup code)).filter (isAdmissible code) = match new with
      | some rate => if isAdmissible code rate then some rate else none
      | none => c.quotes.lookup code := by
  cases new with
  | some rate => rfl
  | none =>
    rw [Option.none_or]
    cases found : c.quotes.lookup code with
    | none => rfl
    | some rate =>
      exact if_pos (ingested.counted (ingested.distinct.mem_iff_lookup.mpr found)).2

section

variable {p p' : Provider} {reply reply' : Reply} {rates prices : Option Quotes}
variable (readRates : p.quotes reply = .ok rates) (readPrices : p'.quotes reply' = .ok prices)

include readRates readPrices

/-- The quotes of answers that have any are found under their codes. -/
theorem exists_newQuote? (given : ¬(rates.getD [] = [] ∧ prices.getD [] = [])) :
    ∃ code rate, newQuote? rates prices code = some rate := by
  by_contra noneNew
  have noneNew : ∀ code, newQuote? rates prices code = none := by
    intro code
    exact Option.eq_none_iff_forall_ne_some.mpr fun rate found => noneNew ⟨code, rate, found⟩
  refine given ⟨?_, ?_⟩
  · refine List.eq_nil_iff_forall_not_mem.mpr ?_
    intro q mem
    have found := (Provider.distinct_fetched readRates).mem_iff_lookup.mp mem
    rw [(Option.or_eq_none_iff.mp (noneNew q.1)).2] at found
    cases found
  · refine List.eq_nil_iff_forall_not_mem.mpr ?_
    intro q mem
    have found := (Provider.distinct_fetched readPrices).mem_iff_lookup.mp mem
    rw [(Option.or_eq_none_iff.mp (noneNew q.1)).1] at found
    cases found

/-- What comes of two answers, and each quote after it. -/
theorem takeIn_outcome (ingested : c.HasIngested) (now : Float) :
    let taken := c.takeIn [(p, reply), (p', reply')] now
    (taken.1 = .ok true ∧ (∃ code rate, newQuote? rates prices code = some rate) ∨
      taken.1 = .ok false ∧ taken.2 = c ∧ ∀ code, newQuote? rates prices code = none) ∧
    (∀ code, taken.2.quotes.lookup code = match newQuote? rates prices code with
      | some rate => if isAdmissible code rate then some rate else none
      | none => c.quotes.lookup code) ∧
    taken.2.HasIngested := by
  intro taken
  by_cases nothing : rates.getD [] = [] ∧ prices.getD [] = []
  · have unchanged : taken = (.ok false, c) :=
      takeIn_of_no_quotes readRates readPrices nothing.1 nothing.2 now
    have noneNew : ∀ code, newQuote? rates prices code = none := by
      intro code
      rw [newQuote?, nothing.1, nothing.2]
      rfl
    rw [unchanged]
    refine ⟨.inr ⟨rfl, rfl, noneNew⟩, ?_, ingested⟩
    intro code
    rw [noneNew]
  · obtain ⟨after, done, keeps, quotes⟩ :=
      takeIn_of_quotes ingested readRates readPrices nothing now
    have done : taken = (.ok true, after) := done
    rw [done]
    refine ⟨.inl ⟨rfl, exists_newQuote? readRates readPrices nothing⟩, ?_, keeps⟩
    intro code
    rw [quotes, filter_or_quote ingested]

end

/-- The answers of both providers are taken in exactly if they have a quote; without one nothing
changes. A code then has its new quote if that counts, no quote if the new one does not count, and
its old quote if there is no new one. So a quote is lost exactly where the new one is infinite. The
answer on currencies does not bear on the quotes of tokens and metals, and no answer on the quotes of
metals. -/
theorem refresh_outcome (ingested : c.HasIngested) {key key' : Option String}
    {fiat crypto : Reply} {rates prices : Option Quotes}
    (readRates : (Provider.currencies key).quotes fiat = .ok rates)
    (readPrices : (Provider.tokens key').quotes crypto = .ok prices) (now : Float) :
    let refreshed := c.takeIn [(.currencies key, fiat), (.tokens key', crypto)] now
    let new? := newQuote? rates prices
    (refreshed.1 = .ok true ∧ (∃ code rate, new? code = some rate) ∨
      refreshed.1 = .ok false ∧ refreshed.2 = c ∧ ∀ code, new? code = none) ∧
    (∀ code, refreshed.2.quotes.lookup code = match new? code with
      | some rate => if isAdmissible code rate then some rate else none
      | none => c.quotes.lookup code) ∧
    (∀ code old, c.quotes.lookup code = some old →
      (refreshed.2.quotes.lookup code = none ↔
        ∃ rate, new? code = some rate ∧ rate.isFinite = false)) ∧
    (∀ code, isDollarPriced code = true → new? code = (prices.getD []).lookup code) ∧
    (∀ code, (Metal.ofCode? code).isSome = true →
      refreshed.2.quotes.lookup code = c.quotes.lookup code) ∧
    refreshed.2.HasIngested := by
  intro refreshed new?
  obtain ⟨result, quotes, keeps⟩ := takeIn_outcome readRates readPrices ingested now
  refine ⟨result, quotes, ?_, ?_, ?_, keeps⟩
  · intro code old had
    have notBase : code ≠ baseCode := by
      have counted := (ingested.counted (ingested.distinct.mem_iff_lookup.mpr had)).2
      exact RateWrite.ne_base_of_isAdmissible counted
    rw [quotes]
    show (match new? code with | some rate => _ | none => _) = none ↔ _
    cases new : new? code with
    | none => simp [had]
    | some rate =>
      have pos := newQuote?_of_pos readRates readPrices new
      simp [isAdmissible, notBase, pos]
  · intro code dollarPriced
    show newQuote? rates prices code = _
    rw [newQuote?, Provider.lookup_currencies readRates dollarPriced, Option.or_none]
  · intro code metal
    have dollarPriced : isDollarPriced code = true := by
      rw [isDollarPriced, metal, Bool.or_true]
    have noNew : newQuote? rates prices code = none := by
      rw [newQuote?, Provider.lookup_currencies readRates dollarPriced,
        Provider.lookup_tokens readPrices metal]
      rfl
    rw [quotes, noNew]

/-- A cache with the quote of a currency. -/
def exEuro : RateCache :=
  (empty defaultLifetime).after (.apply [(.string "EUR", .decimal 0.9)] 1000)

theorem hasIngested_exEuro : exEuro.HasIngested := hasIngested_after (hasIngested_of_empty rfl) _

/-- An answer with the quote of another currency. -/
def exRates : Reply := .payload (.object [("result", .string "success"),
  ("rates", .object [("GBP", .decimal 0.8)])])

/-- An answer with the price of a token. -/
def exPrices : Reply := .payload (.object [("bitcoin", .object [("usd", .decimal 60000)])])

theorem refresh_outcome_exEuro :
    exEuro.HasIngested ∧ (Provider.currencies none).quotes exRates = .ok (some [("GBP", 0.8)]) ∧
      (Provider.tokens none).quotes exPrices = .ok (some [("BTC", 60000)]) ∧
      (exEuro.takeIn [(.currencies none, exRates), (.tokens none, exPrices)] 2000).2.quotes.lookup
        "EUR" = exEuro.quotes.lookup "EUR" := by
  have rates : (Provider.currencies none).quotes exRates = .ok (some [("GBP", 0.8)]) := rfl
  have prices : (Provider.tokens none).quotes exPrices = .ok (some [("BTC", 60000)]) := rfl
  refine ⟨hasIngested_exEuro, rates, prices, ?_⟩
  exact (refresh_outcome hasIngested_exEuro rates prices 2000).2.1 "EUR"

/-- An answer in which the quote of the currency is infinite. -/
def exInfinite : Reply := .payload (.object [("result", .string "success"),
  ("rates", .object [("EUR", .decimal 1e400), ("GBP", .decimal 0.8)])])

/-- A currency whose new quote is infinite loses its old one. -/
theorem infinite_quote_loses_old :
    (exEuro.quotes.lookup "EUR").isSome = true ∧
      let refreshed := exEuro.takeIn [(.currencies none, exInfinite), (.tokens none, .failed)] 2000
      refreshed.1 = .ok true ∧ refreshed.2.quotes.lookup "EUR" = none := by
  refine ⟨by decide +kernel, eq_ok_of_toOption (by decide +kernel), ?_⟩
  exact Option.isNone_iff_eq_none.mp (by decide +kernel)

end RateCache

end LineCalc
