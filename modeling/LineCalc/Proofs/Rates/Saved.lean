import LineCalc.Proofs.Decimal.Integer
import LineCalc.Proofs.Json.Reader
import LineCalc.Proofs.Rates.Writes
import LineCalc.Proofs.Result
import LineCalc.Rates.Saved

/-!
# Taking back saved rates

A saved text replaces the rates of a cache as a whole or leaves the cache as it is. There is one
kind of value that stops it where the text should have been refused: an integer, be it of more
digits than are read or beyond the doubles.

Results:
1. `admissibleQuotes_error_iff`: the quotes that cannot be told to count or not.
2. `RateCache.takeBack_outcome`: what comes of a text, and the cache after it.
-/

namespace LineCalc

/-! ## Saved objects -/

/-- A saved object that is well formed: its time is one, its rates are an object, and the code that
they are against is the base if it is told. -/
structure Json.Saves (j : Json) (time : Float) (quotes : List (String × Json)) : Prop where
  timestamp : ∃ s, j.get? "timestamp" = some (.string s) ∧ Time.read? s = some time
  rates : j.get? "rates" = some (.object quotes)
  base : ∀ code, (j.get? "baseCurrency" <|> j.get? "base_currency") = some code →
    code = .string baseCode

/-- A text is that of a saved object. -/
def SavesText (text : String) (time : Float) (quotes : List (String × Json)) : Prop :=
  ∃ j, Json.read text = .ok j ∧ j.Saves time quotes

/-- An integer that no finite double is near. -/
def Json.IsHuge : Json → Prop
  | .integer n => Decimal.integerLimit ≤ n.natAbs
  | _ => False

variable {j : Json} {time : Float} {quotes : List (String × Json)} {text : String} {f : Fault}

theorem savedTime?_eq_some_iff : savedTime? j = some time ↔
    ∃ s, j.get? "timestamp" = some (.string s) ∧ Time.read? s = some time := by
  unfold savedTime?
  split
  · next s eq => simp [eq]
  · next other =>
    refine iff_of_false (fun h => nomatch h) ?_
    rintro ⟨s, eq, -⟩
    exact other s eq

theorem hasKnownBase_iff : hasKnownBase j = true ↔
    ∀ code, (j.get? "baseCurrency" <|> j.get? "base_currency") = some code →
      code = .string baseCode := by
  unfold hasKnownBase
  split
  · next none => simp [none]
  · next code eq => simp [eq]
  · next code other eq =>
    refine iff_of_false (fun h => nomatch h) fun all => ?_
    exact other _ (all code eq)

theorem members?_eq_some_iff : j.members? = some quotes ↔ j = .object quotes := by
  cases j <;> simp [Json.members?]

theorem savedQuotes?_eq_some_iff : savedQuotes? j = some (time, quotes) ↔ j.Saves time quotes := by
  simp only [savedQuotes?, bind, Option.bind_eq_some_iff, members?_eq_some_iff,
    Option.ite_none_right_eq_some, Option.some.injEq, Prod.mk.injEq]
  constructor
  · rintro ⟨_, timestamp, _, rates, _, rfl, base, rfl, rfl⟩
    exact ⟨savedTime?_eq_some_iff.mp timestamp, rates, hasKnownBase_iff.mp base⟩
  · intro saves
    exact ⟨time, savedTime?_eq_some_iff.mpr saves.timestamp, _, saves.rates, quotes, rfl,
      hasKnownBase_iff.mpr saves.base, rfl, rfl⟩

/-! ## Quotes without a double -/

theorem quotedRate_error_iff : quotedRate j = .error f ↔ j.IsHuge ∧ f = .integerTooLarge := by
  cases j with
  | integer n => exact map_error_iff.trans Decimal.doubleOfInteger_error_iff
  | null | bool | decimal | string | array | object => simp [quotedRate, Json.IsHuge]

/-- Quotes come to nothing only by a huge one. -/
theorem admissibleQuotes_error_iff : admissibleQuotes quotes = .error f ↔
    (∃ q ∈ quotes, q.2.IsHuge) ∧ f = .integerTooLarge := by
  induction quotes with
  | nil => simp [admissibleQuotes]
  | cons q rest ih =>
    have read : ¬q.2.IsHuge → ∃ rate?, quotedRate q.2 = .ok rate? := fun small => by
      cases eq : quotedRate q.2 with
      | ok rate? => exact ⟨rate?, rfl⟩
      | error f => exact absurd (quotedRate_error_iff.mp eq).1 small
    rw [admissibleQuotes_cons, bind_error_iff, quotedRate_error_iff, List.exists_mem_cons_iff]
    by_cases huge : q.2.IsHuge
    · have none : ∀ rate?, quotedRate q.2 ≠ .ok rate? := fun rate? eq => by
        rw [quotedRate_error_iff.mpr ⟨huge, rfl⟩] at eq
        cases eq
      simp [huge, none]
    · obtain ⟨rate?, eq⟩ := read huge
      simp [huge, eq, bind_error_iff, ih, pure, Except.pure]

/-! ## Taking back -/

namespace RateCache

/-- The outcome of taking back the quotes of a text, and the cache after it. -/
def takeBack (c : RateCache) (text : String) (now : Float) : Except Fault Bool × RateCache :=
  match c.load text now with
  | .ok (some loaded) => (.ok true, loaded)
  | .ok none => (.ok false, c)
  | .error f => (.error f, c)

/-- A text has quotes for a cache: it is that of a saved object that is not too old. -/
def HasQuotes (c : RateCache) (text : String) (now time : Float) (quotes : List (String × Json)) :
    Prop :=
  SavesText text time quotes ∧ ¬now - time > c.lifetime

variable {c : RateCache} {now time' : Float} {quotes' : List (String × Json)} {n : Nat}

theorem HasQuotes.unique (has : c.HasQuotes text now time quotes)
    (has' : c.HasQuotes text now time' quotes') : time = time' ∧ quotes = quotes' := by
  obtain ⟨⟨j, eq, saves⟩, -⟩ := has
  obtain ⟨⟨j', eq', saves'⟩, -⟩ := has'
  obtain rfl : j = j' := Except.ok.inj (eq.symm.trans eq')
  have same := (savedQuotes?_eq_some_iff.mpr saves).symm.trans (savedQuotes?_eq_some_iff.mpr saves')
  exact Prod.mk.inj (Option.some.inj same)

theorem HasQuotes.not_integerTooLong (has : c.HasQuotes text now time quotes) :
    Json.read text ≠ .error (.integerTooLong n) := by
  obtain ⟨⟨j, eq, -⟩, -⟩ := has
  rw [eq]
  exact fun h => nomatch h

theorem takeBack_of_integerTooLong (eq : Json.read text = .error (.integerTooLong n)) :
    c.takeBack text now = (.error (.integerTooLong n), c) := by
  rw [takeBack, load, readSaved?, eq]
  rfl

/-- The quotes of a text replace those of the cache, if they can. -/
theorem takeBack_of_hasQuotes (has : c.HasQuotes text now time quotes) : c.takeBack text now =
    match c.update quotes time with
    | .ok loaded => (.ok true, loaded)
    | .error f => (.error f, c) := by
  obtain ⟨⟨j, eq, saves⟩, fresh⟩ := has
  rw [takeBack, load, readSaved?, eq]
  simp only [bind, Except.bind, Option.bind_some, savedQuotes?_eq_some_iff.mpr saves, if_neg fresh]
  cases c.update quotes time <;> rfl

theorem takeBack_of_no_quotes (short : ∀ n, Json.read text ≠ .error (.integerTooLong n))
    (no : ∀ time quotes, ¬c.HasQuotes text now time quotes) :
    c.takeBack text now = (.ok false, c) := by
  rw [takeBack, load, readSaved?]
  cases eq : Json.read text with
  | error e =>
    cases e with
    | malformed => rfl
    | integerTooLong n => exact absurd eq (short n)
  | ok j =>
    cases saved : savedQuotes? j with
    | none => simp only [bind, Except.bind, Option.bind_some, saved]; rfl
    | some entry =>
      obtain ⟨time, quotes⟩ := entry
      have stale : now - time > c.lifetime := by
        by_contra fresh
        exact no time quotes ⟨⟨j, eq, savedQuotes?_eq_some_iff.mp saved⟩, fresh⟩
      simp only [bind, Except.bind, Option.bind_some, saved, if_pos stale]; rfl

theorem update_ok_iff {loaded : RateCache} : c.update quotes time = .ok loaded ↔
    (∀ q ∈ quotes, ¬q.2.IsHuge) ∧
      loaded = { c.setQuotes (quotes.filterMap countedQuote?) with updated := some time } := by
  rw [update, map_ok_iff]
  cases eq : admissibleQuotes quotes with
  | error f =>
    obtain ⟨q, mem, huge⟩ := (admissibleQuotes_error_iff.mp eq).1
    refine iff_of_false ?_ fun h => h.1 q mem huge
    rintro ⟨_, ok, _⟩
    cases ok
  | ok counted =>
    have small : ∀ q ∈ quotes, ¬q.2.IsHuge := fun q mem huge => by
      rw [admissibleQuotes_error_iff.mpr ⟨⟨q, mem, huge⟩, rfl⟩] at eq
      cases eq
    obtain ⟨-, rfl⟩ := admissibleQuotes_ok_iff.mp eq
    rw [and_iff_right small]
    simp [eq_comm]

theorem update_error_iff : c.update quotes time = .error f ↔
    (∃ q ∈ quotes, q.2.IsHuge) ∧ f = .integerTooLarge :=
  map_error_iff.trans admissibleQuotes_error_iff

/-- What comes of a text: it is too long a number, it has quotes for the cache, or it has none. -/
theorem takeBack_cases (c : RateCache) (text : String) (now : Float) :
    (∃ n, Json.read text = .error (.integerTooLong n)) ∨
      (∃ time quotes, c.HasQuotes text now time quotes) ∨
      (∀ n, Json.read text ≠ .error (.integerTooLong n)) ∧
        ∀ time quotes, ¬c.HasQuotes text now time quotes := by
  by_cases long : ∃ n, Json.read text = .error (.integerTooLong n)
  · exact .inl long
  by_cases has : ∃ time quotes, c.HasQuotes text now time quotes
  · exact .inr (.inl has)
  · exact .inr (.inr ⟨not_exists.mp long, fun time quotes h => has ⟨time, quotes, h⟩⟩)

theorem takeBack_error_iff : (c.takeBack text now).1 = .error f ↔
    (∃ n, Json.read text = .error (.integerTooLong n) ∧ f = .integerTooLong n) ∨
      ∃ time quotes, c.HasQuotes text now time quotes ∧ (∃ q ∈ quotes, q.2.IsHuge) ∧
        f = .integerTooLarge := by
  rcases takeBack_cases c text now with ⟨n, long⟩ | ⟨time, quotes, has⟩ | ⟨short, no⟩
  · have none : ∀ time quotes, ¬c.HasQuotes text now time quotes := fun _ _ has =>
      has.not_integerTooLong long
    simp [takeBack_of_integerTooLong long, long, none, eq_comm]
  · have only : (∃ time quotes, c.HasQuotes text now time quotes ∧ (∃ q ∈ quotes, q.2.IsHuge) ∧
        f = .integerTooLarge) ↔ (∃ q ∈ quotes, q.2.IsHuge) ∧ f = .integerTooLarge := by
      refine ⟨fun ⟨time', quotes', has', huge⟩ => ?_, fun huge => ⟨time, quotes, has, huge⟩⟩
      rwa [(has.unique has').2]
    rw [only, ← update_error_iff, takeBack_of_hasQuotes has]
    cases c.update quotes time <;> simp [has.not_integerTooLong]
  · simp [takeBack_of_no_quotes short no, short, no]

theorem takeBack_true_iff : (c.takeBack text now).1 = .ok true ↔
    ∃ time quotes, c.HasQuotes text now time quotes ∧ ∀ q ∈ quotes, ¬q.2.IsHuge := by
  rcases takeBack_cases c text now with ⟨n, long⟩ | ⟨time, quotes, has⟩ | ⟨short, no⟩
  · have none : ∀ time quotes, ¬c.HasQuotes text now time quotes := fun _ _ has =>
      has.not_integerTooLong long
    simp [takeBack_of_integerTooLong long, none]
  · have only : (∃ time quotes, c.HasQuotes text now time quotes ∧ ∀ q ∈ quotes, ¬q.2.IsHuge) ↔
        ∀ q ∈ quotes, ¬q.2.IsHuge := by
      refine ⟨fun ⟨time', quotes', has', small⟩ => ?_, fun small => ⟨time, quotes, has, small⟩⟩
      rwa [(has.unique has').2]
    rw [only, takeBack_of_hasQuotes has]
    cases eq : c.update quotes time with
    | ok loaded => simpa using (update_ok_iff.mp eq).1
    | error f => simpa using (update_error_iff.mp eq).1
  · simp [takeBack_of_no_quotes short no, no]

theorem takeBack_unchanged (other : (c.takeBack text now).1 ≠ .ok true) :
    (c.takeBack text now).2 = c := by
  rw [takeBack] at other ⊢
  split
  · next loaded eq => simp [eq] at other
  · rfl
  · rfl

theorem takeBack_changed (has : c.HasQuotes text now time quotes)
    (taken : (c.takeBack text now).1 = .ok true) :
    c.update quotes time = .ok (c.takeBack text now).2 := by
  rw [takeBack_of_hasQuotes has] at taken ⊢
  cases eq : c.update quotes time with
  | ok loaded => rfl
  | error f => simp [eq] at taken

/-- Taking back the quotes of a text is stopped by a huge quote, or by an integer in the text that
is too long to be read, and by nothing else. If the text has quotes for the cache and none is huge,
they replace those of the cache and its time; in every other case it stays as it was. -/
theorem takeBack_outcome (c : RateCache) (text : String) (now : Float) :
    (∀ f, (c.takeBack text now).1 = .error f ↔
      (∃ n, Json.read text = .error (.integerTooLong n) ∧ f = .integerTooLong n) ∨
        ∃ time quotes, c.HasQuotes text now time quotes ∧ (∃ q ∈ quotes, q.2.IsHuge) ∧
          f = .integerTooLarge) ∧
    (∀ n, Json.read text = .error (.integerTooLong n) → Json.HasLongRow n text.toList) ∧
    ((c.takeBack text now).1 = .ok true ↔
      ∃ time quotes, c.HasQuotes text now time quotes ∧ ∀ q ∈ quotes, ¬q.2.IsHuge) ∧
    ((c.takeBack text now).1 ≠ .ok true → (c.takeBack text now).2 = c) ∧
    ∀ time quotes, c.HasQuotes text now time quotes → (c.takeBack text now).1 = .ok true →
      c.update quotes time = .ok (c.takeBack text now).2 ∧
        (c.takeBack text now).2 =
          { c.setQuotes (quotes.filterMap countedQuote?) with updated := some time } := by
  refine ⟨fun _ => takeBack_error_iff, fun _ eq => Json.hasLongRow_of_read eq, takeBack_true_iff,
    takeBack_unchanged, fun time quotes has taken => ?_⟩
  have loaded := takeBack_changed has taken
  exact ⟨loaded, (update_ok_iff.mp loaded).2⟩

end RateCache

/-! ## A huge quote -/

open Json

/-- A one with zeros after it, more than a double can hold. -/
def exRate : List Char := '1' :: List.replicate 309 '0'

/-- The integer that they are. -/
def exInteger : Nat := Text.ofDecimalDigits (exRate.map fun c => c.toNat - '0'.toNat)

/-- A saved object of one quote. -/
def exSaved : String :=
  "\x7b\"rates\":\x7b\"A\":" ++ String.ofList exRate ++ "\x7d,\"timestamp\":\"1970-01-01\"\x7d"

/-- What follows the rates in it. -/
def exLater : List Char :=
  ['"', 't', 'i', 'm', 'e', 's', 't', 'a', 'm', 'p', '"', ':', '"', '1', '9', '7', '0', '-', '0',
    '1', '-', '0', '1', '"', '\x7d']

theorem toList_exSaved : exSaved.toList =
    '\x7b' :: '"' :: 'r' :: 'a' :: 't' :: 'e' :: 's' :: '"' :: ':' :: '\x7b' :: '"' :: 'A' :: '"' ::
      ':' :: (exRate ++ '\x7d' :: ',' :: exLater) := by
  delta exSaved exLater
  simp

theorem readValue_exRate (rest : List Char) : (readValue (exRate ++ '\x7d' :: rest)).found =
    .ok (.integer exInteger, '\x7d' :: rest) := by
  have other {c : Char} (ne : '1' ≠ c) (rest' : List Char) : exRate ++ '\x7d' :: rest ≠ c :: rest' :=
    fun eq => ne (List.cons.inj eq).1
  have row : ∀ c ∈ exRate, c.isDigit = true := by
    refine List.forall_mem_cons.mpr ⟨rfl, fun c mem => ?_⟩
    rw [List.eq_of_mem_replicate mem]
    rfl
  rw [readValue_scalar (other (by decide)) (other (by decide)) (other (by decide))]
  refine (readNumber_digits false (by decide) row rfl rfl rfl).trans (if_neg ?_)
  rw [List.length_cons, List.length_replicate]
  decide

theorem readMembers_exRate (rest : List Char) :
    (readMembers ('"' :: 'A' :: '"' :: ':' :: (exRate ++ '\x7d' :: rest))).found =
      .ok ([("A", .integer exInteger)], rest) :=
  readMembers_last rfl rfl (readValue_exRate rest) rfl

theorem readMembers_exLater :
    (readMembers exLater).found = .ok ([("timestamp", .string "1970-01-01")], []) := by
  have key : (readString exLater.tail).found = .ok ("timestamp", exLater.drop 11) := rfl
  exact readMembers_last key rfl (readValue_string _) rfl

theorem readValue_exRates (rest : List Char) : (readValue (skipSpace
    ('\x7b' :: '"' :: 'A' :: '"' :: ':' :: (exRate ++ '\x7d' :: rest)))).found =
      .ok (.object [("A", .integer exInteger)], rest) :=
  (readValue_object _).trans (congrArg (onValue _) (readMembers_exRate rest))

theorem read_exSaved : Json.read exSaved = .ok (.object [
    ("rates", .object [("A", .integer exInteger)]), ("timestamp", .string "1970-01-01")]) := by
  have members : (readMembers (exSaved.toList.drop 1)).found = .ok ([
      ("rates", .object [("A", .integer exInteger)]), ("timestamp", .string "1970-01-01")], []) := by
    rw [toList_exSaved]
    refine (readMembers_more rfl rfl (readValue_exRates _) rfl).trans ?_
    exact congrArg (onValue _) readMembers_exLater
  refine read_of_found ?_ (rfl : skipSpace [] = [])
  rw [toList_exSaved] at members ⊢
  exact (readValue_object _).trans (congrArg (onValue _) members)

/-- A huge quote is not passed over, and the text is not refused for it: it stops the operation. -/
theorem huge_quote_not_refused : ((RateCache.empty defaultLifetime).takeBack exSaved 0).1 =
    .error .integerTooLarge := by
  have saves : (Json.object [("rates", .object [("A", .integer exInteger)]),
      ("timestamp", .string "1970-01-01")]).Saves 0 [("A", .integer exInteger)] :=
    ⟨⟨"1970-01-01", rfl, by decide +kernel⟩, rfl, fun _ h => nomatch h⟩
  have huge : (Json.integer exInteger).IsHuge := by
    show Decimal.integerLimit ≤ _
    decide +kernel
  refine RateCache.takeBack_error_iff.mpr (.inr ⟨0, _, ⟨⟨_, read_exSaved, saves⟩, ?_⟩, ?_, rfl⟩)
  · decide +kernel
  · exact ⟨_, List.mem_singleton_self _, huge⟩

end LineCalc
