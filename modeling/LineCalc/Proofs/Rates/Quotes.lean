import LineCalc.Proofs.Rates.Search
import LineCalc.Proofs.Rates.Writes

/-!
# Rates from quotes

All quotes are against the dollar, so in a table of quotes every code has stored rates to and from
the dollar, and to and from nothing else. The rate between two other codes leads over the dollar.

Results:
1. `RateTable.rate?_ofQuotes`: the rates of a table, from the last quote of each code.
2. `rate?_of_applied`: the rates of a cache after a raw map was applied, from its entries.
-/

namespace LineCalc

/-! ## Quotes of a code -/

/-- What one of a code is worth in dollars, from its quote. -/
def toBase (code : String) (rate : Float) : Float := if isDollarPriced code then rate else 1 / rate

/-- What one dollar is worth in a code, from its quote. -/
def fromBase (code : String) (rate : Float) : Float :=
  if isDollarPriced code then 1 / rate else rate

/-- The last quote of a code. -/
def lastQuote? (quotes : List (String × Float)) (code : String) : Option Float :=
  quotes.reverse.lookup code

/-- The rate between two different codes: to or from the dollar by the quote of the other code,
between any other codes by both. -/
def crossRate? (quotes : List (String × Float)) (a b : String) : Option Float :=
  if b = baseCode then (lastQuote? quotes a).map (toBase a)
  else if a = baseCode then (lastQuote? quotes b).map (fromBase b)
  else match lastQuote? quotes a, lastQuote? quotes b with
    | some x, some y => some (toBase a x * fromBase b y)
    | _, _ => none

/-! ## Stored rates -/

namespace RateWrite

variable {a b code : String} {rate : Float}

theorem ne_base_of_isAdmissible (admissible : isAdmissible code rate = true) : code ≠ baseCode := by
  simp only [isAdmissible, Bool.and_eq_true, bne_iff_ne] at admissible
  exact admissible.1.1

theorem nonzero_of_isAdmissible (admissible : isAdmissible code rate = true) :
    (rate == 0) = false := by
  simp only [isAdmissible, Bool.and_eq_true, decide_eq_true_eq] at admissible
  exact Decimal.beq_zero_of_pos admissible.2

/-- A quote stores what its code is worth in dollars, and what a dollar is worth in its code. -/
theorem stored?_ofQuote (admissible : isAdmissible code rate = true) (a b : String) :
    (ofQuote code rate).stored? a b =
      if code = a ∧ baseCode = b then some (toBase code rate)
      else if baseCode = a ∧ code = b then some (fromBase code rate)
      else none := by
  have notBase := ne_base_of_isAdmissible admissible
  have nonzero := nonzero_of_isAdmissible admissible
  unfold ofQuote toBase fromBase
  cases isDollarPriced code with
  | true => simp [stored?, nonzero, and_comm]
  | false =>
    by_cases own : baseCode = a ∧ code = b
    · have other : ¬(code = a ∧ baseCode = b) := fun both => notBase (both.1.trans own.1.symm)
      simp only [stored?, Bool.false_eq_true, if_false]
      rw [if_pos own, if_neg other, if_pos own]
    · simp [stored?, own, nonzero, and_comm]

end RateWrite

namespace RateTable

variable {t : RateTable} {source target : String} {rates : List Float}

/-! ## Paths -/

/-- No path leaves a code without stored rates to others. -/
theorem Path.eq_of_no_step (noStep : ∀ next, t.direct? source next = none)
    (path : Path t source target rates) : target = source := by
  induction path with
  | start => rfl
  | step _ stored ih =>
    subst ih
    rw [noStep] at stored
    cases stored

/-- No path comes to a code that no others have stored rates to. -/
theorem Path.eq_of_no_last (noLast : ∀ code, t.direct? code target = none)
    (path : Path t source target rates) : target = source := by
  cases path with
  | start => rfl
  | step _ stored =>
    rw [noLast] at stored
    cases stored

/-- Where no rate is stored, a path of at most two pairs is one of two pairs. -/
theorem Path.eq_pair (path : Path t source target rates) (different : source ≠ target)
    (notStored : t.direct? source target = none) (short : rates.length ≤ 2) :
    ∃ code first second, t.direct? source code = some first ∧
      t.direct? code target = some second ∧ rates = [first, second] := by
  cases path with
  | start => exact absurd rfl different
  | @step code _ rates second path stored =>
    cases path with
    | start =>
      rw [notStored] at stored
      cases stored
    | @step code _ rates first path before =>
      cases path with
      | start => exact ⟨_, first, second, before, stored, rfl⟩
      | step => simp at short

theorem search_eq_none_of_no_step (distinct : t.Distinct) (different : source ≠ target)
    (noStep : ∀ next, t.direct? source next = none) : t.search source target = none := by
  rw [search_eq_none_iff distinct different]
  rintro ⟨rates, path⟩
  exact different (path.eq_of_no_step noStep).symm

theorem search_eq_none_of_no_last (distinct : t.Distinct) (different : source ≠ target)
    (noLast : ∀ code, t.direct? code target = none) : t.search source target = none := by
  rw [search_eq_none_iff distinct different]
  rintro ⟨rates, path⟩
  exact different (path.eq_of_no_last noLast).symm

/-! ## Tables of quotes -/

section

variable {quotes : List (String × Float)} {a b : String} {x y : Float}
variable (admissible : ∀ q ∈ quotes, isAdmissible q.1 q.2 = true)

include admissible

theorem direct?_ofQuotes (a b : String) :
    (ofQuotes quotes).direct? a b =
      quotes.reverse.findSome? fun q => (RateWrite.ofQuote q.1 q.2).stored? a b := by
  rw [ofQuotes_eq_ofWrites, direct?_ofWrites (RateWrite.valid_ofQuotes admissible),
    RateWrite.ofQuotes, ← List.map_reverse, List.findSome?_map, Function.comp_def]

theorem direct?_to_base (notBase : a ≠ baseCode) :
    (ofQuotes quotes).direct? a baseCode = (lastQuote? quotes a).map (toBase a) := by
  rw [direct?_ofQuotes admissible]
  refine Entries.findSome?_eq_map_lookup fun q mem => ?_
  rw [RateWrite.stored?_ofQuote (admissible q (List.mem_reverse.mp mem))]
  by_cases same : q.1 = a
  · simp [same]
  · simp [same, notBase.symm]

theorem direct?_from_base (notBase : b ≠ baseCode) :
    (ofQuotes quotes).direct? baseCode b = (lastQuote? quotes b).map (fromBase b) := by
  rw [direct?_ofQuotes admissible]
  refine Entries.findSome?_eq_map_lookup fun q mem => ?_
  rw [RateWrite.stored?_ofQuote (admissible q (List.mem_reverse.mp mem))]
  by_cases same : q.1 = b
  · simp [same, notBase]
  · simp [same, notBase.symm]

theorem direct?_of_ne_base (notBaseA : a ≠ baseCode) (notBaseB : b ≠ baseCode) :
    (ofQuotes quotes).direct? a b = none := by
  rw [direct?_ofQuotes admissible, List.findSome?_eq_none_iff]
  intro q mem
  rw [RateWrite.stored?_ofQuote (admissible q (List.mem_reverse.mp mem))]
  simp [notBaseA.symm, notBaseB.symm]

/-- From a code without a quote no stored rate leads on. -/
theorem no_step_of_no_quote (notBase : a ≠ baseCode) (noQuote : lastQuote? quotes a = none)
    (next : String) : (ofQuotes quotes).direct? a next = none := by
  by_cases base : next = baseCode
  · rw [base, direct?_to_base admissible notBase, noQuote]
    rfl
  · exact direct?_of_ne_base admissible notBase base

/-- To a code without a quote no stored rate leads. -/
theorem no_last_of_no_quote (notBase : b ≠ baseCode) (noQuote : lastQuote? quotes b = none)
    (code : String) : (ofQuotes quotes).direct? code b = none := by
  by_cases base : code = baseCode
  · rw [base, direct?_from_base admissible notBase, noQuote]
    rfl
  · exact direct?_of_ne_base admissible base notBase

/-- Between codes other than the dollar the search leads over the dollar. -/
theorem search_over_base (notBaseA : a ≠ baseCode) (notBaseB : b ≠ baseCode) (different : a ≠ b)
    (first : (ofQuotes quotes).direct? a baseCode = some x)
    (second : (ofQuotes quotes).direct? baseCode b = some y) :
    (ofQuotes quotes).search a b = some (x * y) := by
  have distinct := distinct_ofQuotes quotes
  have path : Path (ofQuotes quotes) a b [x, y] := (Path.single first).step second
  cases found : (ofQuotes quotes).search a b with
  | none => exact absurd ⟨_, path⟩ ((search_eq_none_iff distinct different).mp found)
  | some rate =>
    obtain ⟨rates, shortest, value, least⟩ := isShortest_of_search distinct found
    have notStored := direct?_of_ne_base admissible notBaseA notBaseB
    obtain ⟨code, r, r', toCode, fromCode, rfl⟩ :=
      shortest.eq_pair different notStored (least _ path)
    have base : code = baseCode := by
      by_contra notBase
      rw [direct?_of_ne_base admissible notBaseA notBase] at toCode
      cases toCode
    subst base
    rw [first] at toCode
    rw [second] at fromCode
    cases toCode
    cases fromCode
    rw [value, product, List.foldl_cons, Decimal.one_mul_double]
    rfl

/-- Between different codes, quotes give the rates to and from the dollar, and over it. -/
theorem rate?_ofQuotes (different : Text.upper a ≠ Text.upper b) :
    (ofQuotes quotes).rate? a b = crossRate? quotes (Text.upper a) (Text.upper b) := by
  have distinct := distinct_ofQuotes quotes
  rw [rate?, if_neg different, crossRate?]
  generalize Text.upper a = a at different ⊢
  generalize Text.upper b = b at different ⊢
  split
  · next base =>
    subst base
    rw [direct?_to_base admissible different]
    cases quoted : lastQuote? quotes a with
    | none =>
      have noStep := no_step_of_no_quote admissible different quoted
      exact search_eq_none_of_no_step distinct different noStep
    | some x => rfl
  · next notBaseB =>
    split
    · next base =>
      subst base
      rw [direct?_from_base admissible notBaseB]
      cases quoted : lastQuote? quotes b with
      | none =>
        have noLast := no_last_of_no_quote admissible notBaseB quoted
        exact search_eq_none_of_no_last distinct different noLast
      | some x => rfl
    · next notBaseA =>
      rw [direct?_of_ne_base admissible notBaseA notBaseB]
      cases quotedA : lastQuote? quotes a with
      | none =>
        have noStep := no_step_of_no_quote admissible notBaseA quotedA
        exact search_eq_none_of_no_step distinct different noStep
      | some x =>
        cases quotedB : lastQuote? quotes b with
        | none =>
          have noLast := no_last_of_no_quote admissible notBaseB quotedB
          exact search_eq_none_of_no_last distinct different noLast
        | some y =>
          refine search_over_base admissible notBaseA notBaseB different ?_ ?_
          · rw [direct?_to_base admissible notBaseA, quotedA]
            rfl
          · rw [direct?_from_base admissible notBaseB, quotedB]
            rfl

end

end RateTable

/-! ## Raw maps -/

/-- An entry of a raw map whose key is a text. -/
def withTextKey? (entry : Json × Json) : Option (String × Json) :=
  match entry.1 with
  | .string code => some (code, entry.2)
  | _ => none

/-- The quotes that a raw map stands for. -/
def quotesOfMap (raw : List (Json × Json)) : List (String × Float) :=
  raw.filterMap fun entry => (withTextKey? entry).bind countedQuote?

/-- No text is the key of two entries. -/
def IsRawMap (raw : List (Json × Json)) : Prop := Entries.Distinct (raw.filterMap withTextKey?)

/-- The upper case of the key is the code. -/
def isEntryFor (code : String) (entry : Json × Json) : Bool :=
  match entry.1 with
  | .string key => Text.upper key == code
  | _ => false

/-- A value that can be a key. -/
def Json.isKey : Json → Bool
  | .array _ | .object _ => false
  | _ => true

/-- The key can be one, and the value under a text is no integer beyond the doubles. -/
def IsReadableEntry (entry : Json × Json) : Prop :=
  entry.1.isKey = true ∧ ∀ e, withTextKey? entry = some e → ∃ rate?, quotedRate e.2 = .ok rate?

theorem filterMapM_keyed {f : Json × Json → Except Fault (Option (String × Json))}
    (each : ∀ entry, f entry =
      if entry.1.isKey then .ok (withTextKey? entry) else .error .wrongType)
    {raw : List (Json × Json)} {entries : List (String × Json)} :
    raw.filterMapM f = .ok entries ↔
      (∀ entry ∈ raw, entry.1.isKey = true) ∧ entries = raw.filterMap withTextKey? := by
  induction raw generalizing entries with
  | nil =>
    refine ⟨fun eq => ⟨List.forall_mem_nil _, (Except.ok.inj eq).symm⟩, fun h => ?_⟩
    exact congrArg Except.ok h.2.symm
  | cons entry rest ih =>
    rw [List.filterMapM_cons, each, List.forall_mem_cons, List.filterMap_cons]
    by_cases key : entry.1.isKey = true
    · rw [if_pos key]
      cases withTextKey? entry with
      | none => exact ih.trans (and_congr_left fun _ => (and_iff_right key).symm)
      | some e =>
        show (rest.filterMapM f >>= fun others => .ok (e :: others)) = .ok entries ↔ _
        rw [bind_ok_iff]
        constructor
        · rintro ⟨others, eqOthers, eq⟩
          obtain ⟨keys, rfl⟩ := ih.mp eqOthers
          exact ⟨⟨key, keys⟩, (Except.ok.inj eq).symm⟩
        · rintro ⟨⟨-, keys⟩, rfl⟩
          exact ⟨_, ih.mpr ⟨keys, rfl⟩, rfl⟩
    · rw [if_neg key]
      constructor
      · rintro ⟨⟩
      · exact fun h => absurd h.1.1 key

/-- Where all keys can be keys, the entries are those with texts as keys. -/
theorem quotesOfPairs_ok_iff {raw : List (Json × Json)} (isMap : IsRawMap raw)
    {entries : List (String × Json)} : quotesOfPairs raw = .ok entries ↔
      (∀ entry ∈ raw, entry.1.isKey = true) ∧ entries = raw.filterMap withTextKey? := by
  rw [quotesOfPairs, bind_ok_iff]
  constructor
  · rintro ⟨pairs, eqPairs, eq⟩
    rw [filterMapM_keyed fun ⟨key, quote⟩ => by cases key <;> rfl] at eqPairs
    obtain ⟨keys, rfl⟩ := eqPairs
    rw [Entries.ofPairs_of_distinct isMap] at eq
    exact ⟨keys, (Except.ok.inj eq).symm⟩
  · rintro ⟨keys, rfl⟩
    refine ⟨raw.filterMap withTextKey?, ?_, ?_⟩
    · rw [filterMapM_keyed fun ⟨key, quote⟩ => by cases key <;> rfl]
      exact ⟨keys, rfl⟩
    · rw [Entries.ofPairs_of_distinct isMap]
      rfl

/-- A raw map is applied exactly if all its entries can be read, and then the table is one of its
quotes. -/
theorem perform_apply_iff {c c' : RateCache} {raw : List (Json × Json)} {time : Float}
    (isMap : IsRawMap raw) : c.perform (.apply raw time) = .ok c' ↔
      (∀ entry ∈ raw, IsReadableEntry entry) ∧
        c' = { c.setQuotes (quotesOfMap raw) with updated := some time } := by
  have quotes : (raw.filterMap withTextKey?).filterMap countedQuote? = quotesOfMap raw := by
    rw [List.filterMap_filterMap, quotesOfMap]
  rw [RateCache.perform, bind_ok_iff]
  constructor
  · rintro ⟨entries, keyed, updated⟩
    obtain ⟨keys, rfl⟩ := (quotesOfPairs_ok_iff isMap).mp keyed
    obtain ⟨_, admitted, rfl⟩ := map_ok_iff.mp updated
    obtain ⟨rates, rfl⟩ := admissibleQuotes_ok_iff.mp admitted
    rw [quotes]
    refine ⟨fun entry mem => ⟨keys entry mem, fun e eq => ?_⟩, rfl⟩
    exact rates e (List.mem_filterMap.mpr ⟨entry, mem, eq⟩)
  · rintro ⟨readable, rfl⟩
    refine ⟨_, (quotesOfPairs_ok_iff isMap).mpr ⟨fun entry mem => (readable entry mem).1, rfl⟩, ?_⟩
    refine map_ok_iff.mpr ⟨_, admissibleQuotes_ok_iff.mpr ⟨fun e mem => ?_, rfl⟩, ?_⟩
    · obtain ⟨entry, mem, eq⟩ := List.mem_filterMap.mp mem
      exact (readable entry mem).2 e eq
    · rw [quotes]

theorem isAdmissible_of_mem_quotesOfMap {raw : List (Json × Json)} :
    ∀ q ∈ quotesOfMap raw, isAdmissible q.1 q.2 = true := by
  intro q mem
  obtain ⟨entry, -, eq⟩ := List.mem_filterMap.mp mem
  obtain ⟨e, -, counted⟩ := Option.bind_eq_some_iff.mp eq
  exact (countedQuote?_eq_some counted).2

/-- The last quote of a code depends only on the entries for the code. -/
theorem lastQuote?_filter_isEntryFor (raw : List (Json × Json)) (code : String) :
    lastQuote? (quotesOfMap (raw.filter (isEntryFor code))) code =
      lastQuote? (quotesOfMap raw) code := by
  have kept : quotesOfMap (raw.filter (isEntryFor code)) =
      (quotesOfMap raw).filter (·.1 == code) := by
    rw [quotesOfMap, quotesOfMap, List.filterMap_filter, List.filter_filterMap]
    refine List.filterMap_congr fun entry _ => ?_
    obtain ⟨key, quote⟩ := entry
    cases key with
    | string key =>
      show (if (Text.upper key == code) = true then countedQuote? (key, quote) else none) =
        (countedQuote? (key, quote)).filter (·.1 == code)
      cases counted : countedQuote? (key, quote) with
      | none => simp
      | some q =>
        rw [Option.filter_some, (countedQuote?_eq_some counted).1]
    | null | bool | integer | decimal | array | object => rfl
  rw [kept, lastQuote?, ← List.filter_reverse, Entries.lookup_filter, lastQuote?]

theorem crossRate?_of_same_entries {raw reordered : List (Json × Json)}
    (same : ∀ code, reordered.filter (isEntryFor code) = raw.filter (isEntryFor code)) (a b : String) :
    crossRate? (quotesOfMap reordered) a b = crossRate? (quotesOfMap raw) a b := by
  have last (code : String) :
      lastQuote? (quotesOfMap reordered) code = lastQuote? (quotesOfMap raw) code := by
    rw [← lastQuote?_filter_isEntryFor, same, lastQuote?_filter_isEntryFor]
  rw [crossRate?, last a, last b, crossRate?]

theorem IsRawMap.perm {raw reordered : List (Json × Json)} (isMap : IsRawMap raw)
    (perm : reordered.Perm raw) : IsRawMap reordered :=
  (((perm.filterMap withTextKey?).map _).nodup_iff).mpr isMap

/-- When a raw map has been applied, the rates between different codes are those to and from the
dollar and over it, from the last entry for each code that counts, whatever the rates were before.
The same entries, as long as those for one code keep their order, are applied to any other cache and
give the same rates. -/
theorem rate?_of_applied {c c' : RateCache} {raw : List (Json × Json)} {time : Float}
    (isMap : IsRawMap raw) (applied : c.perform (.apply raw time) = .ok c') :
    (∀ a b, Text.upper a ≠ Text.upper b →
        c'.table.rate? a b = crossRate? (quotesOfMap raw) (Text.upper a) (Text.upper b)) ∧
      ∀ (other : RateCache) (reordered : List (Json × Json)) (time : Float),
        reordered.Perm raw → (∀ code, reordered.filter (isEntryFor code) = raw.filter (isEntryFor code)) →
        ∃ other', other.perform (.apply reordered time) = .ok other' ∧
          ∀ a b, other'.table.rate? a b = c'.table.rate? a b := by
  obtain ⟨readable, rfl⟩ := (perform_apply_iff isMap).mp applied
  have rates (c : RateCache) (raw : List (Json × Json)) {a b : String}
      (different : Text.upper a ≠ Text.upper b) :
      (c.setQuotes (quotesOfMap raw)).table.rate? a b =
        crossRate? (quotesOfMap raw) (Text.upper a) (Text.upper b) :=
    RateTable.rate?_ofQuotes isAdmissible_of_mem_quotesOfMap different
  refine ⟨fun a b different => rates c raw different, ?_⟩
  intro other reordered time' perm same
  refine ⟨_, (perform_apply_iff (isMap.perm perm)).mpr ⟨?_, rfl⟩, fun a b => ?_⟩
  · exact fun entry mem => readable entry (perm.mem_iff.mp mem)
  · show (other.setQuotes (quotesOfMap reordered)).table.rate? a b =
      (c.setQuotes (quotesOfMap raw)).table.rate? a b
    by_cases different : Text.upper a = Text.upper b
    · rw [RateTable.rate?, RateTable.rate?, if_pos different, if_pos different]
    · rw [rates other reordered different, rates c raw different, crossRate?_of_same_entries same]

/-- Two euros a dollar, by the last entry for euros, and eight dollars a token. -/
theorem rate?_of_applied_exEuros :
    let raw : List (Json × Json) := [(.string "eur", .decimal 4), (.integer 1, .decimal 3),
      (.string "BTC", .decimal 8), (.string "EUR", .decimal 2)]
    let reordered : List (Json × Json) := [(.string "BTC", .decimal 8), (.string "eur", .decimal 4),
      (.integer 1, .decimal 3), (.string "EUR", .decimal 2)]
    ∃ c c', (RateCache.empty 60).perform (.apply raw 0) = .ok c ∧
      (RateCache.withFallback 60).perform (.apply reordered 0) = .ok c' ∧
      c.table.rate? "btc" "Eur" = some 16 ∧ c'.table.rate? "btc" "Eur" = some 16 := by
  intro raw reordered
  have isMap : IsRawMap raw := by
    show List.Nodup ["eur", "BTC", "EUR"]
    decide
  have number (key : Json) (isKey : key.isKey = true) (x : Float) : IsReadableEntry (key, .decimal x) := by
    refine ⟨isKey, fun e eq => ?_⟩
    cases key with
    | string code =>
      cases eq
      exact ⟨_, rfl⟩
    | null | bool | integer | decimal | array | object => cases eq
  have readable : ∀ entry ∈ raw, IsReadableEntry entry := by
    simp only [raw, List.forall_mem_cons]
    exact ⟨number _ rfl 4, number _ rfl 3, number _ rfl 8, number _ rfl 2, List.forall_mem_nil _⟩
  have same (code : String) : reordered.filter (isEntryFor code) = raw.filter (isEntryFor code) := by
    have lower : Text.upper "eur" = "EUR" := by decide +kernel
    have euro : Text.upper "EUR" = "EUR" := by decide +kernel
    have token : Text.upper "BTC" = "BTC" := by decide +kernel
    by_cases isEuro : "EUR" = code
    · subst isEuro
      simp [raw, reordered, isEntryFor, lower, euro, token]
    · simp [raw, reordered, isEntryFor, lower, euro, isEuro, List.filter_cons]
  have perm : reordered.Perm raw := (List.Perm.swap _ _ _).trans (.cons _ (.swap _ _ _))
  obtain ⟨c, applied⟩ : ∃ c, (RateCache.empty 60).perform (.apply raw 0) = .ok c :=
    ⟨_, (perform_apply_iff isMap).mpr ⟨readable, rfl⟩⟩
  obtain ⟨rates, again⟩ := rate?_of_applied isMap applied
  obtain ⟨c', appliedAgain, unchanged⟩ :=
    again (RateCache.withFallback 60) reordered 0 perm same
  have rate : c.table.rate? "btc" "Eur" = some 16 := by
    rw [rates "btc" "Eur" (by decide +kernel)]
    decide +kernel
  exact ⟨c, c', applied, appliedAgain, rate, (unchanged "btc" "Eur").trans rate⟩

end LineCalc
