import LineCalc.Proofs.Json.Written
import LineCalc.Proofs.Rates.Refresh
import LineCalc.Proofs.Time.Timestamp

/-!
# Rates saved and taken back

Only the quotes of a cache are saved, and the table is made from them anew. Every quote stores its
two pairs at the place where its code first came in, so the table of the quotes that were kept is the
table of all that came in.

Results:
1. `RateTable.ofQuotes_ofPairs`: quotes and those kept of them make the same table.
2. `RateCache.load_savedText`: what a cache is that takes back the saved quotes of another.
-/

namespace LineCalc

/-! ## The pairs of a quote -/

namespace RateWrite

/-- What a write of a rate other than zero leaves in a table without its pairs. -/
def pairs (w : RateWrite) : RateTable :=
  [((w.source, w.target), w.rate), ((w.target, w.source), 1 / w.rate)]

/-- What a quote leaves in a table without its pairs. -/
def quotePairs (q : String × Float) : RateTable := (ofQuote q.1 q.2).pairs

variable {w : RateWrite} {t t' : RateTable} {q : String × Float} {code : String} {rate old : Float}

/-- The direction of a quote is told by its code. -/
theorem direction_ofQuote (code : String) (rate old : Float) :
    (ofQuote code rate).source = (ofQuote code old).source ∧
      (ofQuote code rate).target = (ofQuote code old).target := by
  unfold ofQuote
  split <;> exact ⟨rfl, rfl⟩

/-- The codes of a quote are its own and the base. -/
theorem codes_ofQuote (code : String) (rate : Float) :
    (ofQuote code rate).source = code ∧ (ofQuote code rate).target = baseCode ∨
      (ofQuote code rate).source = baseCode ∧ (ofQuote code rate).target = code := by
  unfold ofQuote
  split
  · exact .inl ⟨rfl, rfl⟩
  · exact .inr ⟨rfl, rfl⟩

/-- A write has no pair in common with one that does not name one of its codes. -/
theorem pairs_apart {w other : RateWrite} (named : w.source = code ∨ w.target = code)
    (notSource : other.source ≠ code) (notTarget : other.target ≠ code)
    {e : (String × String) × Float} (mem : e ∈ w.pairs) :
    e.1 ≠ (other.source, other.target) ∧ e.1 ≠ (other.target, other.source) := by
  have first : e.1 = (w.source, w.target) ∨ e.1 = (w.target, w.source) := by
    rcases List.mem_pair.mp mem with eq | eq
    · exact .inl (congrArg Prod.fst eq)
    · exact .inr (congrArg Prod.fst eq)
  rw [ne_eq, ne_eq, ← not_or]
  intro same
  have sources : w.source = other.source ∧ w.target = other.target ∨
      w.source = other.target ∧ w.target = other.source := by
    rcases first with eq | eq <;> rcases same with eq' | eq'
    all_goals
      rw [eq, Prod.mk.injEq] at eq'
      simp [eq']
  rcases sources with ⟨source, target⟩ | ⟨source, target⟩
  all_goals
    rw [source, target] at named
    rcases named with eq | eq
    · first | exact notSource eq | exact notTarget eq
    · first | exact notSource eq | exact notTarget eq

/-- Quotes of different codes have no pair in common. -/
theorem quotePairs_apart (other : code ≠ q.1) (notBase : q.1 ≠ baseCode)
    {e : (String × String) × Float} (mem : e ∈ quotePairs q) :
    e.1 ≠ ((ofQuote code rate).source, (ofQuote code rate).target) ∧
      e.1 ≠ ((ofQuote code rate).target, (ofQuote code rate).source) := by
  have named := (codes_ofQuote q.1 q.2).imp And.left And.right
  rcases codes_ofQuote code rate with ⟨source, target⟩ | ⟨source, target⟩
  · refine pairs_apart named ?_ ?_ mem
    · rw [source]
      exact other
    · rw [target]
      exact notBase.symm
  · refine pairs_apart named ?_ ?_ mem
    · rw [source]
      exact notBase.symm
    · rw [target]
      exact other

end RateWrite

namespace RateTable

open RateWrite (quotePairs)

variable {w : RateWrite} {t : RateTable} {code : String} {rate : Float}

/-- A write of pairs that the first entries do not have goes to the entries behind them. -/
theorem write_append_of_new
    (new : ∀ e ∈ t, e.1 ≠ (w.source, w.target) ∧ e.1 ≠ (w.target, w.source)) (t' : RateTable) :
    (t ++ t').write w = t ++ RateTable.write t' w := by
  have newPair : (w.source, w.target) ∉ t.map (·.1) := by
    rintro mem
    obtain ⟨e, mem, eq⟩ := List.mem_map.mp mem
    exact (new e mem).1 eq
  have newOpposite : (w.target, w.source) ∉ t.map (·.1) := by
    rintro mem
    obtain ⟨e, mem, eq⟩ := List.mem_map.mp mem
    exact (new e mem).2 eq
  unfold write store
  rw [Entries.set_append_of_new newPair]
  split
  · rfl
  · rw [Entries.set_append_of_new newOpposite]

/-- A write to its own pairs changes their rates in place. -/
theorem write_pairs (different : w.source ≠ w.target) (nonzero : (w.rate == 0) = false)
    (old old' : Float) (t : RateTable) :
    RateTable.write (((w.source, w.target), old) :: ((w.target, w.source), old') :: t) w =
      w.pairs ++ t := by
  simp [write, store, Entries.set, nonzero, different, RateWrite.pairs]

theorem write_nil (different : w.source ≠ w.target) (nonzero : (w.rate == 0) = false) :
    RateTable.write [] w = w.pairs := by
  simp [write, store, Entries.set, nonzero, different, RateWrite.pairs]

/-- A quote is stored at the place of its code. -/
theorem storeQuote_flatMap {quotes : Quotes} (notBase : ∀ q ∈ quotes, q.1 ≠ baseCode)
    (admissible : isAdmissible code rate = true) :
    storeQuote (quotes.flatMap quotePairs) code rate =
      (quotes.set code rate).flatMap quotePairs := by
  have different := (RateWrite.valid_ofQuote admissible).different
  have nonzero : ((RateWrite.ofQuote code rate).rate == 0) = false := by
    rw [RateWrite.rate_ofQuote]
    exact RateWrite.nonzero_of_isAdmissible admissible
  rw [storeQuote_eq_write]
  induction quotes with
  | nil =>
    show RateTable.write [] _ = quotePairs (code, rate) ++ []
    rw [write_nil different nonzero, List.append_nil]
    rfl
  | cons q rest ih =>
    obtain ⟨k, old⟩ := q
    obtain ⟨headNotBase, notBase⟩ := List.forall_mem_cons.mp notBase
    rw [Entries.set, List.flatMap_cons]
    split
    · next same =>
      subst same
      obtain ⟨source, target⟩ := RateWrite.direction_ofQuote k rate old
      rw [quotePairs, RateWrite.pairs, ← source, ← target]
      exact write_pairs different nonzero _ _ _
    · next other =>
      rw [write_append_of_new (w := RateWrite.ofQuote code rate) fun _ =>
        RateWrite.quotePairs_apart (Ne.symm other) headNotBase, ih notBase, List.flatMap_cons]

/-- A table of quotes holds the pairs of each code at its place. -/
theorem ofQuotes_eq_flatMap {quotes : List (String × Float)}
    (admissible : ∀ q ∈ quotes, isAdmissible q.1 q.2 = true) :
    ofQuotes quotes = (Entries.ofPairs quotes).flatMap quotePairs := by
  induction quotes using List.reverseRecOn with
  | nil => rfl
  | append_singleton quotes q ih =>
    obtain ⟨code, rate⟩ := q
    obtain ⟨earlier, last⟩ := List.forall_mem_append.mp admissible
    have notBase : ∀ e ∈ Entries.ofPairs quotes, e.1 ≠ baseCode := fun e mem =>
      RateWrite.ne_base_of_isAdmissible (earlier e (Entries.mem_ofPairs mem))
    have stored : ofQuotes (quotes ++ [(code, rate)]) = (ofQuotes quotes).storeQuote code rate := by
      rw [ofQuotes, List.foldl_append, List.foldl_cons, List.foldl_nil, ofQuotes]
    rw [stored, ih earlier, Entries.ofPairs_append_singleton,
      storeQuote_flatMap notBase (last _ List.mem_cons_self)]

/-- The quotes that are kept make the table of all that came in. -/
theorem ofQuotes_ofPairs {quotes : List (String × Float)}
    (admissible : ∀ q ∈ quotes, isAdmissible q.1 q.2 = true) :
    ofQuotes (Entries.ofPairs quotes) = ofQuotes quotes := by
  have kept : ∀ q ∈ Entries.ofPairs quotes, isAdmissible q.1 q.2 = true := fun q mem =>
    admissible q (Entries.mem_ofPairs mem)
  rw [ofQuotes_eq_flatMap kept, ofQuotes_eq_flatMap admissible,
    Entries.ofPairs_of_distinct (Entries.distinct_ofPairs quotes)]

end RateTable

/-! ## Saving -/

namespace RateCache

variable {c other loaded : RateCache} {text stamp : String} {now time : Float}

/-- The saved object of quotes. -/
def savedObject (stamp : String) (quotes : Quotes) : Json :=
  .object [("timestamp", .string stamp),
    ("rates", .object (quotes.map fun (code, rate) => (code, .decimal rate))),
    ("baseCurrency", .string baseCode)]

theorem savedText_eq (updated : c.updated = some time) (dated : Time.write time = .ok stamp) :
    c.savedText = .ok (savedObject stamp c.quotes).indented := by
  have dated : Time.write (c.updated.getD 0) = .ok stamp := by
    rw [updated]
    exact dated
  rw [savedText, saved, dated]
  rfl

theorem saves_savedObject (read : Time.read? stamp = some time) (quotes : Quotes) :
    (savedObject stamp quotes).Saves time (quotes.map fun (code, rate) => (code, .decimal rate)) := by
  refine ⟨⟨stamp, rfl, read⟩, rfl, ?_⟩
  intro code told
  exact (Option.some.inj told).symm

theorem read_savedObject {quotes : Quotes} (distinct : quotes.Distinct) (stamp : String) :
    Json.read (savedObject stamp quotes).indented = .ok (savedObject stamp quotes) := by
  have rates : Json.Storable (.object (quotes.map fun (code, rate) => (code, .decimal rate))) := by
    refine .object ?_ ?_
    · rw [Entries.Distinct, List.map_map]
      exact distinct
    · intro m mem
      obtain ⟨q, -, rfl⟩ := List.mem_map.mp mem
      exact .decimal q.2
  refine Json.read_indented (.object ?_ ?_)
  · show List.Nodup ["timestamp", "rates", "baseCurrency"]
    decide
  · simp only [List.forall_mem_cons]
    exact ⟨.string _, rates, .string _, List.forall_mem_nil _⟩

/-! ## Taking back -/

/-- A text is taken back exactly if it has quotes and these can be taken in. -/
theorem load_eq_some_iff : c.load text now = .ok (some loaded) ↔
    ∃ time quotes, c.HasQuotes text now time quotes ∧ c.update quotes time = .ok loaded := by
  have outcome : c.load text now = .ok (some loaded) ↔ c.takeBack text now = (.ok true, loaded) := by
    unfold takeBack
    split
    · next eq => simp [eq]
    · next eq => simp [eq]
    · next eq => simp [eq]
  rw [outcome]
  constructor
  · intro taken
    obtain ⟨time, quotes, has, -⟩ := takeBack_true_iff.mp (congrArg Prod.fst taken)
    have updated := takeBack_changed has (congrArg Prod.fst taken)
    rw [taken] at updated
    exact ⟨time, quotes, has, updated⟩
  · rintro ⟨time, quotes, has, updated⟩
    rw [takeBack_of_hasQuotes has, updated]

/-- The table of a cache is the one that its quotes make. -/
def HasTable (c : RateCache) : Prop := c.table = .ofQuotes c.quotes

theorem hasTable_of_update {entries : List (String × Json)}
    (updated : c.update entries time = .ok loaded) : loaded.HasTable := by
  obtain ⟨-, rfl⟩ := update_ok_iff.mp updated
  have admissible : ∀ q ∈ entries.filterMap countedQuote?, isAdmissible q.1 q.2 = true := by
    intro q mem
    obtain ⟨entry, -, counted⟩ := List.mem_filterMap.mp mem
    exact (countedQuote?_eq_some counted).2
  exact (RateTable.ofQuotes_ofPairs admissible).symm

/-- Quotes of a cache that are taken in by another make the same cache, but for its lifetime. -/
theorem update_quotes (ingested : c.HasIngested) (table : c.HasTable) (other : RateCache)
    (time : Float) :
    other.update (c.quotes.map fun (code, rate) => (code, .decimal rate)) time =
      .ok { c with lifetime := other.lifetime, updated := some time } := by
  have counted : c.quotes.filter (fun q => isAdmissible q.1 q.2) = c.quotes :=
    List.filter_eq_self.mpr fun q mem => (ingested.counted mem).2
  rw [update_decimals _ fun q mem => (ingested.counted mem).1, counted, setQuotes,
    Entries.ofPairs_of_distinct ingested.distinct, ← table]

theorem isFreshText_of_saves {j : Json} {quotes : List (String × Json)}
    (read : Json.read text = .ok j) (saves : j.Saves time quotes) :
    c.isFreshText text now = .ok (now - time ≤ c.lifetime) := by
  rw [isFreshText, readSaved?, read]
  simp only [bind, Except.bind, Option.bind_some, savedTime?_eq_some_iff.mpr saves.timestamp]
  rfl

/-- Quotes that are taken back are fresh, and so is their text unless the lifetime is no number. -/
theorem fresh_of_load (loads : c.load text now = .ok (some loaded)) :
    loaded.isExpired now = false ∧
      (now.isFinite = true → c.isFreshText text now = .ok (!c.lifetime.isNaN)) := by
  obtain ⟨time, quotes, ⟨⟨j, read, saves⟩, notStale⟩, updated⟩ := load_eq_some_iff.mp loads
  obtain ⟨-, rfl⟩ := update_ok_iff.mp updated
  refine ⟨decide_eq_false notStale, fun finite => ?_⟩
  obtain ⟨stamp, -, dated⟩ := saves.timestamp
  have age := Decimal.not_isNaN_sub finite (Time.not_isNaN_of_read? dated)
  rw [isFreshText_of_saves read saves]
  refine congrArg Except.ok (Bool.eq_iff_iff.mpr ?_)
  rw [decide_eq_true_iff, Decimal.le_iff, and_iff_left notStale, and_iff_right age,
    Bool.not_eq_true']

/-- The quotes that were applied to a cache are saved and taken back by any other cache for which
they are fresh: it then has the same quotes and the same table. Whatever text a cache takes back, it
is not expired then, and the text is fresh for it unless its lifetime is no number. -/
theorem load_savedText :
    (∀ (c₀ c : RateCache) (raw : List (Json × Json)) (time : Float) (stamp : String),
      c₀.perform (.apply raw time) = .ok c → Time.write time = .ok stamp →
      ∃ text saved, c.savedText = .ok text ∧ Time.read? stamp = some saved ∧
        ∀ (other : RateCache) (now : Float), now - saved ≤ other.lifetime →
          ∃ loaded, other.load text now = .ok (some loaded) ∧
            loaded.quotes = c.quotes ∧ loaded.table = c.table ∧ loaded.updated = some saved ∧
            loaded.lifetime = other.lifetime ∧
            ∀ a b, loaded.table.rate? a b = c.table.rate? a b) ∧
    ∀ (other loaded : RateCache) (text : String) (now : Float),
      other.load text now = .ok (some loaded) →
        loaded.isExpired now = false ∧
          (now.isFinite = true → other.isFreshText text now = .ok (!other.lifetime.isNaN)) := by
  refine ⟨?_, fun other loaded text now => fresh_of_load⟩
  intro c₀ c raw time stamp applied dated
  obtain ⟨entries, -, updated⟩ := bind_ok_iff.mp applied
  have ingested := hasIngested_of_update updated
  have table := hasTable_of_update updated
  obtain ⟨saved, read⟩ := Time.read?_of_write dated
  have timed : c.updated = some time := by rw [(update_ok_iff.mp updated).2]
  have saves : SavesText (savedObject stamp c.quotes).indented saved _ :=
    ⟨_, read_savedObject ingested.distinct stamp, saves_savedObject read c.quotes⟩
  refine ⟨_, saved, savedText_eq timed dated, read, ?_⟩
  intro other now fresh
  have notStale : ¬now - saved > other.lifetime := (Decimal.le_iff.mp fresh).2
  have taken := update_quotes ingested table other saved
  exact ⟨_, load_eq_some_iff.mpr ⟨saved, _, ⟨saves, notStale⟩, taken⟩, rfl, rfl, rfl, rfl,
    fun _ _ => rfl⟩

/-- The start of time as it is written. -/
def exStamp : String := "1970-01-01T00:00:00+00:00"

theorem write_exStamp : Time.write 0 = .ok exStamp := rfl

theorem read_exStamp : Time.read? exStamp = some 0 := rfl

/-- A quote that is applied at the start of time is taken back half a minute later. -/
theorem load_savedText_exEuro :
    let raw : List (Json × Json) := [(.string "eur", .decimal 0.9)]
    ∃ c text loaded, (empty 60).perform (.apply raw 0) = .ok c ∧ Time.write 0 = .ok exStamp ∧
      c.savedText = .ok text ∧ (empty 90).load text 30 = .ok (some loaded) ∧
      loaded.quotes = [("EUR", 0.9)] ∧ (30 : Float).isFinite = true ∧
      (empty 90).isFreshText text 30 = .ok true := by
  intro raw
  let c : RateCache := { (empty 60).setQuotes [("EUR", 0.9)] with updated := some 0 }
  have applied : (empty 60).perform (.apply raw 0) = .ok c := by
    have isMap : IsRawMap raw := by
      show List.Nodup ["eur"]
      decide
    have readable : ∀ entry ∈ raw, IsReadableEntry entry := by
      refine List.forall_mem_singleton.mpr ⟨rfl, ?_⟩
      rintro _ ⟨⟩
      exact ⟨_, rfl⟩
    have quotes : quotesOfMap raw = [("EUR", 0.9)] := by decide +kernel
    rw [perform_apply_iff isMap, quotes]
    exact ⟨readable, rfl⟩
  obtain ⟨back, fresh⟩ := load_savedText
  obtain ⟨text, saved, savedText, read, takes⟩ := back _ c raw 0 exStamp applied write_exStamp
  rw [read_exStamp] at read
  cases read
  obtain ⟨loaded, loads, quotes, -⟩ := takes (empty 90) 30 (by decide +kernel)
  have finite : (30 : Float).isFinite = true := by decide +kernel
  have isFresh := (fresh _ loaded text 30 loads).2 finite
  have number : (!(empty 90).lifetime.isNaN) = true := by decide +kernel
  rw [number] at isFresh
  exact ⟨c, text, loaded, applied, write_exStamp, savedText, loads, quotes, finite, isFresh⟩

/-- A cache whose lifetime is no number takes back a text that is not fresh for it. -/
theorem load_of_nan_lifetime :
    ¬∀ (other loaded : RateCache) (text : String) (now : Float), now.isFinite = true →
      other.load text now = .ok (some loaded) → other.isFreshText text now = .ok true := by
  intro fresh
  let other := empty (0 / 0)
  let j := savedObject exStamp []
  have read : Json.read j.indented = .ok j := read_savedObject (Entries.distinct_ofPairs []) _
  have saves : j.Saves 0 [] := saves_savedObject read_exStamp []
  have notStale : ¬(0 : Float) - 0 > other.lifetime := by decide +kernel
  have loads : other.load j.indented 0 = .ok (some { other with updated := some 0 }) :=
    load_eq_some_iff.mpr ⟨0, [], ⟨⟨j, read, saves⟩, notStale⟩, rfl⟩
  have isFresh := fresh other _ j.indented 0 (by decide +kernel) loads
  rw [isFreshText_of_saves read saves] at isFresh
  exact absurd (Except.ok.inj isFresh) (by decide +kernel)

end RateCache

end LineCalc
