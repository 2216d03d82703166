import LineCalc.Proofs.Rates.Refresh

/-!
# Malformed answers

An answer should give quotes or none, whatever is in it. It does, unless the payload is no object,
or the rates in it are none, or a price is an integer beyond the doubles: then reading it stops. A
decimal beyond the doubles does not stop it but is taken for an infinite quote. Where one answer
stops, the refresh stops with it, and the quotes of the other provider are not taken in either.

Results:
1. `Provider.quotes_error_iff`: the answers at which reading stops.
2. `Provider.answerLaw_iff`: the answers that come to what they should.
3. `RateCache.takeIn_error_iff`: the refresh stops exactly if one of the answers does.
4. `answer_law`: these together, and that all quotes are taken in otherwise.
-/

namespace LineCalc

/-! ## Answers that stop -/

namespace Provider

variable {p : Provider} {reply : Reply} {members : List (String × Json)} {found : Quotes}
variable {j : Json} {f : Fault}

/-- A positive integer that no finite double is near. -/
def IsHugePrice (j : Json) : Prop := ∃ n : Int, j = .integer n ∧ 0 < n ∧ j.IsHuge

/-- A member of the rates of currencies is too great a quote. -/
def StopsRates (member : String × Json) : Prop :=
  isDollarPriced (Text.upper member.1) = false ∧ IsHugePrice member.2

/-- A member of the prices of tokens is too great a quote. -/
def StopsPrices (member : String × Json) : Prop :=
  (Crypto.ofPriceId? member.1).isSome = true ∧
    ∃ price, member.2.get? "usd" = some price ∧ IsHugePrice price

/-- Reading an answer stops. -/
inductive Stops : Provider → Reply → Fault → Prop
  | payload {p : Provider} {j : Json} : j.members? = none → Stops p (.payload j) .wrongShape
  | rates {key : Option String} {j rates : Json} {members : List (String × Json)} :
      j.members? = some members → reportSuccess members = true →
      firstTruthy? members ["rates", "conversion_rates"] = some rates → rates.members? = none →
      Stops (.currencies key) (.payload j) .wrongShape
  | rate {key : Option String} {j rates : Json} {members listed : List (String × Json)}
      {member : String × Json} :
      j.members? = some members → reportSuccess members = true →
      firstTruthy? members ["rates", "conversion_rates"] = some rates →
      rates.members? = some listed → member ∈ listed → StopsRates member →
      Stops (.currencies key) (.payload j) .integerTooLarge
  | price {key : Option String} {j : Json} {members : List (String × Json)}
      {member : String × Json} :
      j.members? = some members → member ∈ members → StopsPrices member →
      Stops (.tokens key) (.payload j) .integerTooLarge

theorem positive?_error_iff : positive? j = .error f ↔ IsHugePrice j ∧ f = .integerTooLarge := by
  cases j with
  | null | bool | decimal | string | array | object =>
    simp [positive?, IsHugePrice]
  | integer n =>
    have huge : IsHugePrice (.integer n) ↔ 0 < n ∧ Decimal.integerLimit ≤ n.natAbs := by
      simp [IsHugePrice, Json.IsHuge]
    rw [huge, positive?, and_assoc, ← Decimal.doubleOfInteger_error_iff]
    split
    · next pos => rw [map_error_iff, and_iff_right pos]
    · next other => simp [other]

/-- A price and what is read behind it: one of the two stops. -/
theorem priced_error_iff {next : Option Float → Except Fault Quotes} {later : Prop}
    (rest : ∀ price, next price = .error f ↔ later ∧ f = .integerTooLarge) :
    positive? j >>= next = .error f ↔ (IsHugePrice j ∨ later) ∧ f = .integerTooLarge := by
  rw [bind_error_iff, positive?_error_iff]
  simp only [rest]
  cases read : positive? j with
  | error g =>
    have huge := (positive?_error_iff.mp read).1
    simp [huge]
  | ok price =>
    have small : ¬IsHugePrice j := fun huge => by
      rw [positive?_error_iff.mpr ⟨huge, rfl⟩] at read
      cases read
    simp [small]

theorem currencyQuotes_error_iff : currencyQuotes members found = .error f ↔
    (∃ m ∈ members, StopsRates m) ∧ f = .integerTooLarge := by
  induction members generalizing found with
  | nil => simp [currencyQuotes]
  | cons member rest ih =>
    obtain ⟨code, rate⟩ := member
    rw [currencyQuotes, List.exists_mem_cons_iff, StopsRates]
    dsimp only
    split
    · next dollarPriced => simp [dollarPriced, ih]
    · next other =>
      rw [and_iff_right ((Bool.not_eq_true _).mp other)]
      refine priced_error_iff fun price => ?_
      cases price with
      | none => exact ih
      | some x => exact ih

theorem tokenQuotes_error_iff : tokenQuotes members found = .error f ↔
    (∃ m ∈ members, StopsPrices m) ∧ f = .integerTooLarge := by
  induction members generalizing found with
  | nil => simp [tokenQuotes]
  | cons member rest ih =>
    obtain ⟨name, prices⟩ := member
    rw [tokenQuotes, List.exists_mem_cons_iff, StopsPrices]
    dsimp only
    split
    · next token price known listed =>
      have priced : ((Crypto.ofPriceId? name).isSome = true ∧
          ∃ price, prices.get? "usd" = some price ∧ IsHugePrice price) ↔ IsHugePrice price := by
        simp [known, listed]
      rw [priced]
      refine priced_error_iff fun positive => ?_
      cases positive with
      | none => exact ih
      | some x => exact ih
    · next missing =>
      have priced : ¬((Crypto.ofPriceId? name).isSome = true ∧
          ∃ price, prices.get? "usd" = some price ∧ IsHugePrice price) := by
        rintro ⟨known, price, listed, -⟩
        obtain ⟨token, known⟩ := Option.isSome_iff_exists.mp known
        exact missing token price known listed
      rw [ih, or_iff_right priced]

theorem requireMembers_error_iff :
    requireMembers j = .error f ↔ j.members? = none ∧ f = .wrongShape := by
  cases j <;> simp [requireMembers, Json.members?, eq_comm]

/-- Reading an answer stops exactly where `Stops` has it. -/
theorem quotes_error_iff : p.quotes reply = .error f ↔ p.Stops reply f := by
  cases reply with
  | failed => exact ⟨nofun, nofun⟩
  | payload j =>
    cases p with
    | currencies key =>
      rw [quotes_currencies, bind_error_iff, requireMembers_error_iff]
      simp only [requireMembers_ok_iff]
      constructor
      · rintro (⟨other, rfl⟩ | ⟨members, object, stops⟩)
        · exact .payload other
        · split at stops
          · next success =>
            split at stops
            · cases stops
            · next rates given =>
              rcases bind_error_iff.mp stops with shape | ⟨listed, shape, stops⟩
              · obtain ⟨other, rfl⟩ := requireMembers_error_iff.mp shape
                exact .rates object success given other
              · obtain ⟨⟨member, mem, huge⟩, rfl⟩ :=
                  currencyQuotes_error_iff.mp (map_error_iff.mp stops)
                exact .rate object success given (requireMembers_ok_iff.mp shape) mem huge
          · cases stops
      · intro stops
        cases stops with
        | payload other => exact .inl ⟨other, rfl⟩
        | @rates _ _ _ members object success given other =>
          refine .inr ⟨members, object, ?_⟩
          rw [if_pos success, given]
          exact bind_error_iff.mpr (.inl (requireMembers_error_iff.mpr ⟨other, rfl⟩))
        | @rate _ _ _ members listed member object success given shape mem huge =>
          refine .inr ⟨members, object, ?_⟩
          rw [if_pos success, given]
          refine bind_error_iff.mpr (.inr ⟨listed, requireMembers_ok_iff.mpr shape, ?_⟩)
          exact map_error_iff.mpr (currencyQuotes_error_iff.mpr ⟨⟨member, mem, huge⟩, rfl⟩)
    | tokens key =>
      rw [quotes_tokens, bind_error_iff, requireMembers_error_iff]
      simp only [requireMembers_ok_iff, map_error_iff, tokenQuotes_error_iff]
      constructor
      · rintro (⟨other, rfl⟩ | ⟨members, object, ⟨member, mem, huge⟩, rfl⟩)
        · exact .payload other
        · exact .price object mem huge
      · intro stops
        cases stops with
        | payload other => exact .inl ⟨other, rfl⟩
        | @price _ _ members member object mem huge =>
          exact .inr ⟨members, object, ⟨member, mem, huge⟩, rfl⟩

theorem not_stops_of_quotes {fetched : Option Quotes} (read : p.quotes reply = .ok fetched)
    (f : Fault) : ¬p.Stops reply f := by
  rw [← quotes_error_iff, read]
  nofun

theorem exists_quotes (goesOn : ∀ f, ¬p.Stops reply f) :
    ∃ fetched, p.quotes reply = .ok fetched := by
  cases read : p.quotes reply with
  | ok fetched => exact ⟨fetched, rfl⟩
  | error f => exact absurd (quotes_error_iff.mp read) (goesOn f)

/-! ## What the law says -/

/-- What reading an answer should come to: no quotes, or finite positive ones under codes in upper
case. -/
def AnswerLaw (result : Except Fault (Option Quotes)) : Prop :=
  ∃ fetched, result = .ok fetched ∧
    ∀ q ∈ fetched.getD [], Text.upper q.1 = q.1 ∧ 0 < q.2 ∧ q.2.isFinite = true

/-- An answer comes to what it should unless it stops or a code has an infinite quote in the end. -/
theorem answerLaw_iff : AnswerLaw (p.quotes reply) ↔
    (∀ f, ¬p.Stops reply f) ∧ ∀ q ∈ Entries.ofPairs (p.offers reply), q.2.isFinite = true := by
  cases read : p.quotes reply with
  | error f =>
    refine iff_of_false ?_ fun h => h.1 f (quotes_error_iff.mp read)
    rintro ⟨fetched, result, -⟩
    cases result
  | ok fetched =>
    rw [and_iff_right (not_stops_of_quotes read), ← quotes_eq_ofPairs read]
    constructor
    · rintro ⟨_, ⟨⟩, law⟩ q mem
      exact (law q mem).2.2
    · intro finite
      refine ⟨fetched, rfl, fun q mem => ?_⟩
      obtain ⟨upper, pos⟩ := upper_and_pos_of_fetched read mem
      exact ⟨upper, pos, finite q mem⟩

end Provider

/-! ## Refreshing -/

namespace RateCache

open Provider (quotes_error_iff not_stops_of_quotes exists_quotes AnswerLaw)

variable {c : RateCache} {p p' : Provider} {reply reply' : Reply} {f : Fault} {now : Float}

/-- The first of two answers at which the reading of both stops. -/
def StopsAt (p p' : Provider) (reply reply' : Reply) (f : Fault) : Prop :=
  p.Stops reply f ∨ (∀ g, ¬p.Stops reply g) ∧ p'.Stops reply' f

theorem mergedQuotes_of_stops {old : Quotes} (stops : StopsAt p p' reply reply' f) :
    mergedQuotes old [(p, reply), (p', reply')] = .error f := by
  rcases stops with first | ⟨goesOn, second⟩
  · rw [mergedQuotes, quotes_error_iff.mpr first]
    rfl
  · obtain ⟨fetched, read⟩ := exists_quotes goesOn
    have stopped (before : Quotes) : mergedQuotes before [(p', reply')] = .error f := by
      rw [mergedQuotes, quotes_error_iff.mpr second]
      rfl
    rw [mergedQuotes, read]
    rcases fetched with _ | _ | ⟨q, rest⟩
    · exact stopped old
    · exact stopped old
    · show ((mergedQuotes (old.merge (q :: rest)) [(p', reply')]) >>= fun later =>
        Except.ok (some (later.getD (old.merge (q :: rest))))) = _
      rw [stopped]
      rfl

/-- Where one of the answers stops, nothing of the other one is taken in. -/
theorem takeIn_of_stops (stops : StopsAt p p' reply reply' f) :
    c.takeIn [(p, reply), (p', reply')] now = (.error f, c) := by
  have stopped : c.refresh [(p, reply), (p', reply')] now = .error f := by
    rw [refresh, mergedQuotes_of_stops stops]
    rfl
  rw [takeIn, stopped]

/-- The refresh stops exactly if one of the answers does. -/
theorem takeIn_error_iff (ingested : c.HasIngested) :
    (c.takeIn [(p, reply), (p', reply')] now).1 = .error f ↔ StopsAt p p' reply reply' f := by
  refine ⟨fun stopped => ?_, fun stops => by rw [takeIn_of_stops stops]⟩
  cases readRates : p.quotes reply with
  | error g =>
    have stops := quotes_error_iff.mp readRates
    rw [takeIn_of_stops (.inl stops)] at stopped
    cases stopped
    exact .inl stops
  | ok rates =>
    have goesOn := not_stops_of_quotes readRates
    cases readPrices : p'.quotes reply' with
    | error g =>
      have stops := quotes_error_iff.mp readPrices
      rw [takeIn_of_stops (.inr ⟨goesOn, stops⟩)] at stopped
      cases stopped
      exact .inr ⟨goesOn, stops⟩
    | ok prices =>
      rcases (takeIn_outcome readRates readPrices ingested now).1 with ⟨done, -⟩ | ⟨done, -⟩
      · cases done.symm.trans stopped
      · cases done.symm.trans stopped

/-- Where neither answer stops, the quotes of both are taken in that count. -/
theorem takeIn_quotes (ingested : c.HasIngested) {key key' : Option String}
    {rates prices : Option Quotes} (readRates : (Provider.currencies key).quotes reply = .ok rates)
    (readPrices : (Provider.tokens key').quotes reply' = .ok prices) {q : String × Float}
    (mem : q ∈ rates.getD [] ++ prices.getD []) (counts : isAdmissible q.1 q.2 = true) :
    (c.takeIn [(.currencies key, reply), (.tokens key', reply')] now).2.quotes.lookup q.1 =
      some q.2 := by
  have quotes := (takeIn_outcome readRates readPrices ingested now).2.1 q.1
  have new : newQuote? rates prices q.1 = some q.2 := by
    rw [newQuote?]
    rcases List.mem_append.mp mem with mem | mem
    · -- The quotes of tokens leave currencies alone.
      have other : (prices.getD []).lookup q.1 = none := by
        refine Option.eq_none_iff_forall_ne_some.mpr fun x found => ?_
        have priced := Provider.dollarPriced_of_fetched readPrices (Entries.mem_of_lookup found)
        rw [Provider.not_dollarPriced_of_fetched readRates mem] at priced
        cases priced
      rw [other, Option.none_or]
      exact (Provider.distinct_fetched readRates).mem_iff_lookup.mp mem
    · rw [(Provider.distinct_fetched readPrices).mem_iff_lookup.mp mem]
      rfl
  rw [quotes, new]
  exact if_pos counts

end RateCache

/-- Reading an answer stops exactly at a payload of the wrong shape and at an integer beyond the
doubles. An answer comes to no quotes, or to finite positive ones under codes in upper case, exactly
if it does not stop and no code has an infinite quote in the end. The refresh of a cache, after any
actions on it, stops exactly if one of both answers does, and leaves the cache as it was, whatever
the other answer has. Otherwise it takes in all quotes of both that count. -/
theorem answer_law (lifetime : Float) (seeded : Bool) (actions : List RateAction)
    (key key' : Option String) (fiat crypto : Reply) (now : Float) :
    let c := (RateCache.new lifetime seeded).afterAll actions
    let refreshed := c.takeIn [(.currencies key, fiat), (.tokens key', crypto)] now
    (∀ (p : Provider) (reply : Reply), (∀ f, p.quotes reply = .error f ↔ p.Stops reply f) ∧
      (Provider.AnswerLaw (p.quotes reply) ↔ (∀ f, ¬p.Stops reply f) ∧
        ∀ q ∈ Entries.ofPairs (p.offers reply), q.2.isFinite = true)) ∧
    (∀ f, refreshed.1 = .error f ↔ (Provider.currencies key).Stops fiat f ∨
      (∀ g, ¬(Provider.currencies key).Stops fiat g) ∧ (Provider.tokens key').Stops crypto f) ∧
    (∀ f, refreshed.1 = .error f → refreshed.2 = c) ∧
    ∀ rates prices, (Provider.currencies key).quotes fiat = .ok rates →
      (Provider.tokens key').quotes crypto = .ok prices →
      ∀ q ∈ rates.getD [] ++ prices.getD [], isAdmissible q.1 q.2 = true →
        refreshed.2.quotes.lookup q.1 = some q.2 := by
  intro c refreshed
  have ingested : c.HasIngested := RateCache.hasIngested_afterAll lifetime seeded actions
  refine ⟨fun p reply => ⟨fun f => Provider.quotes_error_iff, Provider.answerLaw_iff⟩,
    fun f => RateCache.takeIn_error_iff ingested, fun f stopped => ?_, ?_⟩
  · have unchanged : refreshed = (.error f, c) :=
      RateCache.takeIn_of_stops ((RateCache.takeIn_error_iff ingested).mp stopped)
    rw [unchanged]
  · intro rates prices readRates readPrices q mem counts
    exact RateCache.takeIn_quotes ingested readRates readPrices mem counts

/-- A list in place of the rates of currencies stops the refresh, with the price of a token. -/
theorem answerLaw_exList :
    let fiat := Reply.payload (.array [])
    ¬Provider.AnswerLaw ((Provider.currencies none).quotes fiat) ∧
      (Provider.tokens none).quotes RateCache.exPrices = .ok (some [("BTC", 60000)]) ∧
      RateCache.exEuro.takeIn [(.currencies none, fiat), (.tokens none, RateCache.exPrices)] 2000 =
        (.error .wrongShape, RateCache.exEuro) := by
  intro fiat
  have stops : (Provider.currencies none).Stops fiat .wrongShape := .payload rfl
  refine ⟨fun law => ?_, rfl, RateCache.takeIn_of_stops (.inl stops)⟩
  exact (Provider.answerLaw_iff.mp law).1 _ stops

end LineCalc
