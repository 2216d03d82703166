import LineCalc.Proofs.Decimal.Reciprocal
import LineCalc.Proofs.Rates.Table

/-!
# Writes to a rate table

A table holds what the writes since its last replacement have left in it: under each pair, what the
latest of them stored there that stored anything, be it the rate of that pair or the reciprocal of
the opposite one.

Results:
1. `RateTable.direct?_ofWrites`: what is stored under a pair, from the writes.
2. `RateCache.table_afterAll`: the table of a cache after any actions, from the writes they make.
-/

namespace LineCalc

/-! ## Single writes -/

/-- That one `source` is worth `rate` of `target`. -/
structure RateWrite where
  source : String
  target : String
  rate : Float

namespace RateWrite

/-- Only a finite rate that is not negative is written, and only between different codes. -/
structure Valid (w : RateWrite) : Prop where
  different : w.source ≠ w.target
  isFinite : w.rate.isFinite = true
  nonneg : 0 ≤ w.rate

instance (w : RateWrite) : Decidable w.Valid :=
  decidable_of_iff (w.source ≠ w.target ∧ w.rate.isFinite = true ∧ 0 ≤ w.rate)
    ⟨fun h => ⟨h.1, h.2.1, h.2.2⟩, fun h => ⟨h.different, h.isFinite, h.nonneg⟩⟩

/-- What a write stores under a pair. -/
def stored? (w : RateWrite) (a b : String) : Option Float :=
  if w.source = a ∧ w.target = b then some w.rate
  else if w.source = b ∧ w.target = a ∧ (w.rate == 0) = false then some (1 / w.rate)
  else none

/-- The write that a quote stands for. -/
def ofQuote (code : String) (rate : Float) : RateWrite :=
  if isDollarPriced code then ⟨code, baseCode, rate⟩ else ⟨baseCode, code, rate⟩

/-- The writes that quotes stand for, the latest first. -/
def ofQuotes (quotes : List (String × Float)) : List RateWrite :=
  (quotes.map fun q => ofQuote q.1 q.2).reverse

variable {w : RateWrite} {a b code : String} {rate : Float}

theorem Valid.pos (valid : w.Valid) (nonzero : (w.rate == 0) = false) : 0 < w.rate := by
  rcases Decimal.nonneg_iff.mp valid.nonneg with zero | pos
  · simp [nonzero] at zero
  · exact pos

theorem stored?_self : w.stored? w.source w.target = some w.rate := if_pos ⟨rfl, rfl⟩

theorem Valid.stored?_opposite (valid : w.Valid) : w.stored? w.target w.source =
    if w.rate == 0 then none else some (1 / w.rate) := by
  rw [stored?, if_neg fun both => valid.different both.1]
  cases w.rate == 0 <;> simp

theorem stored?_of_other (other : ¬(w.source = a ∧ w.target = b))
    (opposite : ¬(w.source = b ∧ w.target = a)) : w.stored? a b = none := by
  rw [stored?, if_neg other, if_neg fun both => opposite ⟨both.1, both.2.1⟩]

theorem rate_ofQuote (code : String) (rate : Float) : (ofQuote code rate).rate = rate := by
  unfold ofQuote
  split <;> rfl

theorem valid_ofQuote (admissible : isAdmissible code rate = true) : (ofQuote code rate).Valid := by
  simp only [isAdmissible, Bool.and_eq_true, bne_iff_ne, decide_eq_true_eq] at admissible
  obtain ⟨⟨notBase, finite⟩, pos⟩ := admissible
  have nonneg : 0 ≤ rate := Decimal.nonneg_iff.mpr (.inr pos)
  unfold ofQuote
  split
  · exact ⟨notBase, finite, nonneg⟩
  · exact ⟨notBase.symm, finite, nonneg⟩

theorem valid_ofQuotes {quotes : List (String × Float)}
    (admissible : ∀ q ∈ quotes, isAdmissible q.1 q.2 = true) : ∀ w ∈ ofQuotes quotes, w.Valid := by
  intro w mem
  obtain ⟨q, mem, eq⟩ := List.mem_map.mp (List.mem_reverse.mp mem)
  rw [← eq]
  exact valid_ofQuote (admissible q mem)

end RateWrite

/-! ## Tables of writes -/

namespace RateTable

variable {t : RateTable} {w : RateWrite} {log : List RateWrite} {a b : String}

/-- The table after a write. -/
def write (t : RateTable) (w : RateWrite) : RateTable := t.store w.source w.target w.rate

/-- The table that writes make, the latest first. -/
def ofWrites (log : List RateWrite) : RateTable := log.foldr (fun w t => t.write w) []

theorem ofWrites_cons : ofWrites (w :: log) = (ofWrites log).write w := rfl

theorem lookup_set (t : RateTable) (a b : String) :
    (Entries.set (w.source, w.target) w.rate t).lookup (a, b) =
      if w.source = a ∧ w.target = b then some w.rate else t.direct? a b := by
  split
  · next same =>
    rw [← same.1, ← same.2]
    exact Entries.lookup_set_self t _ _
  · next other =>
    refine Entries.lookup_set_of_ne t (fun eq => other ?_) _
    exact ⟨(congrArg Prod.fst eq).symm, (congrArg Prod.snd eq).symm⟩

/-- A write changes the two pairs that it stores something under, and no other. -/
theorem direct?_write (valid : w.Valid) :
    (t.write w).direct? a b = (w.stored? a b).or (t.direct? a b) := by
  by_cases zero : (w.rate == 0) = true
  · have once : t.write w = Entries.set (w.source, w.target) w.rate t := if_pos zero
    rw [once, direct?, lookup_set, RateWrite.stored?]
    split
    · rfl
    · simp [zero]
  · let opposite : RateWrite := ⟨w.target, w.source, 1 / w.rate⟩
    have twice : t.write w =
        Entries.set (opposite.source, opposite.target) opposite.rate
          (Entries.set (w.source, w.target) w.rate t) := if_neg zero
    rw [twice, direct?, lookup_set, direct?, lookup_set]
    by_cases same : w.source = a ∧ w.target = b
    · have ne : ¬(opposite.source = a ∧ opposite.target = b) := fun both =>
        valid.different (same.1.trans both.1.symm)
      rw [if_neg ne, if_pos same, RateWrite.stored?, if_pos same, Option.some_or]
    · have swapped : (opposite.source = a ∧ opposite.target = b) ↔
          w.source = b ∧ w.target = a ∧ (w.rate == 0) = false := by
        simp [opposite, zero, and_comm]
      rw [if_neg same, RateWrite.stored?, if_neg same, ite_cond_congr (propext swapped)]
      split <;> rfl

/-- Under a pair stands what the latest write stored there that stored anything. -/
theorem direct?_ofWrites (valid : ∀ w ∈ log, w.Valid) :
    (ofWrites log).direct? a b = log.findSome? (·.stored? a b) := by
  induction log with
  | nil => rfl
  | cons w earlier ih =>
    obtain ⟨validHead, valid⟩ := List.forall_mem_cons.mp valid
    rw [ofWrites_cons, direct?_write validHead, ih valid, List.findSome?_cons]
    cases w.stored? a b <;> rfl

theorem storeQuote_eq_write (t : RateTable) (code : String) (rate : Float) :
    t.storeQuote code rate = t.write (RateWrite.ofQuote code rate) := by
  unfold storeQuote write RateWrite.ofQuote
  split <;> rfl

theorem ofQuotes_eq_ofWrites (quotes : List (String × Float)) :
    ofQuotes quotes = ofWrites (RateWrite.ofQuotes quotes) := by
  rw [ofWrites, RateWrite.ofQuotes, List.foldr_reverse, List.foldl_map, ofQuotes]
  simp only [storeQuote_eq_write]

end RateTable

/-! ## Admissible quotes -/

/-- The quote that an entry stands for, if it counts: its value is, or reads as, a rate that is
admissible for the upper case of its key. -/
def countedQuote? (entry : String × Json) : Option (String × Float) :=
  match quotedRate entry.2 with
  | .ok (some rate) =>
    if isAdmissible (Text.upper entry.1) rate then some (Text.upper entry.1, rate) else none
  | _ => none

theorem countedQuote?_eq_some {entry : String × Json} {q : String × Float}
    (counted : countedQuote? entry = some q) :
    q.1 = Text.upper entry.1 ∧ isAdmissible q.1 q.2 = true := by
  rw [countedQuote?] at counted
  split at counted
  · split at counted
    · next admissible =>
      cases counted
      exact ⟨rfl, admissible⟩
    · cases counted
  · cases counted

theorem admissibleQuotes_cons (entry : String × Json) (rest : List (String × Json)) :
    admissibleQuotes (entry :: rest) = do
      let _ ← quotedRate entry.2
      let others ← admissibleQuotes rest
      return (countedQuote? entry).toList ++ others := by
  obtain ⟨code, quote⟩ := entry
  rw [admissibleQuotes, countedQuote?]
  cases quotedRate quote with
  | error f => rfl
  | ok rate? =>
    cases rate? with
    | none => rfl
    | some rate =>
      refine congrArg (admissibleQuotes rest >>= ·) (funext fun others => ?_)
      dsimp only
      split <;> rfl

/-- Where all rates can be read, the quotes are those of the entries that count. -/
theorem admissibleQuotes_ok_iff {entries : List (String × Json)}
    {quotes : List (String × Float)} : admissibleQuotes entries = .ok quotes ↔
      (∀ entry ∈ entries, ∃ rate?, quotedRate entry.2 = .ok rate?) ∧
        quotes = entries.filterMap countedQuote? := by
  induction entries generalizing quotes with
  | nil =>
    refine ⟨fun eq => ⟨List.forall_mem_nil _, (Except.ok.inj eq).symm⟩, fun h => ?_⟩
    exact congrArg Except.ok h.2.symm
  | cons entry rest ih =>
    have added : (entry :: rest).filterMap countedQuote? =
        (countedQuote? entry).toList ++ rest.filterMap countedQuote? := by
      rw [List.filterMap_cons]
      cases countedQuote? entry <;> rfl
    rw [admissibleQuotes_cons, List.forall_mem_cons, added, bind_ok_iff]
    constructor
    · rintro ⟨rate?, read, eq⟩
      obtain ⟨others, eqOthers, eq⟩ := bind_ok_iff.mp eq
      obtain ⟨all, rfl⟩ := ih.mp eqOthers
      exact ⟨⟨⟨rate?, read⟩, all⟩, (Except.ok.inj eq).symm⟩
    · rintro ⟨⟨⟨rate?, read⟩, all⟩, rfl⟩
      exact ⟨rate?, read, bind_ok_iff.mpr ⟨_, ih.mpr ⟨all, rfl⟩, rfl⟩⟩

theorem isAdmissible_of_mem_admissibleQuotes {entries : List (String × Json)}
    {quotes : List (String × Float)} (eq : admissibleQuotes entries = .ok quotes) :
    ∀ q ∈ quotes, isAdmissible q.1 q.2 = true := by
  intro q mem
  obtain ⟨-, rfl⟩ := admissibleQuotes_ok_iff.mp eq
  obtain ⟨entry, -, counted⟩ := List.mem_filterMap.mp mem
  exact (countedQuote?_eq_some counted).2

/-! ## Actions on a cache -/

/-- What changes the rates of a cache. The keys of quotes need not be texts. -/
inductive RateAction
  | set (source target : String) (rate : Float)
  | apply (quotes : List (Json × Json)) (time : Float)
  | clear

/-- The writes since the last replacement of the table, the latest first, after an action. What is
refused writes nothing. -/
def RateAction.log (earlier : List RateWrite) : RateAction → List RateWrite
  | .set source target rate =>
    let w : RateWrite := ⟨Text.upper source, Text.upper target, rate⟩
    if w.Valid then w :: earlier else earlier
  | .apply quotes _ =>
    match quotesOfPairs quotes >>= admissibleQuotes with
    | .ok quotes => RateWrite.ofQuotes quotes
    | .error _ => earlier
  | .clear => []

namespace RateCache

/-- A new cache: without rates, or of the fallback rates. -/
def new (lifetime : Float) (seeded : Bool) : RateCache :=
  if seeded then withFallback lifetime else empty lifetime

/-- An action on a cache. -/
def perform (c : RateCache) : RateAction → Except Fault RateCache
  | .set source target rate => c.setRate source target rate
  | .apply quotes time => do c.update (← quotesOfPairs quotes) time
  | .clear => .ok c.clear

/-- The cache after an action. What is refused changes nothing. -/
def after (c : RateCache) (a : RateAction) : RateCache :=
  match c.perform a with
  | .ok c => c
  | .error _ => c

/-- The cache after actions, one after the other. -/
def afterAll (c : RateCache) (actions : List RateAction) : RateCache := actions.foldl after c

/-- What was written to a new cache. -/
def firstLog (seeded : Bool) : List RateWrite :=
  if seeded then RateWrite.ofQuotes fallbackQuotes else []

/-- The writes since the last replacement of the table of a new cache, after actions. -/
def logAll (seeded : Bool) (actions : List RateAction) : List RateWrite :=
  actions.foldl RateAction.log (firstLog seeded)

variable {c : RateCache} {log : List RateWrite} {a : RateAction}

theorem table_setRate (table : c.table = .ofWrites log) (source target : String) (rate : Float) :
    (c.after (.set source target rate)).table =
      .ofWrites ((RateAction.set source target rate).log log) := by
  let w : RateWrite := ⟨Text.upper source, Text.upper target, rate⟩
  simp only [after, perform, setRate, RateAction.log]
  by_cases fits : w.Valid
  · have admitted : (!rate.isFinite || decide (rate < 0)) = false := by
      have finite : rate.isFinite = true := fits.isFinite
      have notNegative : ¬rate < 0 := (Decimal.nonneg_iff_not_neg finite).mp fits.nonneg
      simp [finite, notNegative]
    have different : Text.upper source ≠ Text.upper target := fits.different
    simp [admitted, different, fits, w, table, RateTable.ofWrites_cons, RateTable.write]
  · rw [if_neg fits]
    by_cases admitted : (!rate.isFinite || decide (rate < 0)) = true
    · simp [admitted, table]
    · simp only [Bool.or_eq_true, Bool.not_eq_true', decide_eq_true_eq, not_or,
        Bool.not_eq_false] at admitted
      have same : Text.upper source = Text.upper target := by
        by_contra different
        exact fits ⟨different, admitted.1, (Decimal.nonneg_iff_not_neg admitted.1).mpr admitted.2⟩
      simp [admitted, same, table]

theorem valid_log (valid : ∀ w ∈ log, w.Valid) (a : RateAction) : ∀ w ∈ a.log log, w.Valid := by
  cases a with
  | set source target rate =>
    rw [RateAction.log]
    split
    · next fits => exact List.forall_mem_cons.mpr ⟨fits, valid⟩
    · exact valid
  | apply quotes time =>
    rw [RateAction.log]
    split
    · next quotes eq =>
      obtain ⟨entries, -, eq⟩ := bind_ok_iff.mp eq
      exact RateWrite.valid_ofQuotes (isAdmissible_of_mem_admissibleQuotes eq)
    · exact valid
  | clear => simp [RateAction.log]

/-- An action writes to the table what it adds to the writes. -/
theorem table_after (table : c.table = .ofWrites log) (a : RateAction) :
    (c.after a).table = .ofWrites (a.log log) := by
  cases a with
  | set source target rate => exact table_setRate table source target rate
  | apply quotes time =>
    simp only [after, perform, update, RateAction.log]
    cases quotesOfPairs quotes with
    | error f => exact table
    | ok entries =>
      simp only [bind, Except.bind]
      cases admissibleQuotes entries with
      | error f => exact table
      | ok quotes => exact RateTable.ofQuotes_eq_ofWrites quotes
  | clear => rfl

theorem isAdmissible_of_mem_fallbackQuotes :
    ∀ q ∈ fallbackQuotes, isAdmissible q.1 q.2 = true := by
  have all : fallbackQuotes.all (fun q => isAdmissible q.1 q.2) = true := by decide +kernel
  exact List.all_eq_true.mp all

theorem table_new (lifetime : Float) (seeded : Bool) :
    (new lifetime seeded).table = .ofWrites (firstLog seeded) := by
  cases seeded with
  | false => rfl
  | true =>
    rw [new, if_pos rfl, withFallback, table_setQuotes, RateTable.ofQuotes_eq_ofWrites, firstLog,
      if_pos rfl]

theorem valid_firstLog (seeded : Bool) : ∀ w ∈ firstLog seeded, w.Valid := by
  cases seeded with
  | false => simp [firstLog]
  | true => exact RateWrite.valid_ofQuotes isAdmissible_of_mem_fallbackQuotes

/-- After any actions the table is made of the writes since it was last replaced. -/
theorem table_afterAll (lifetime : Float) (seeded : Bool) (actions : List RateAction) :
    ((new lifetime seeded).afterAll actions).table = .ofWrites (logAll seeded actions) := by
  suffices run : ∀ (c : RateCache) (log : List RateWrite), c.table = .ofWrites log →
      (c.afterAll actions).table = .ofWrites (actions.foldl RateAction.log log) from
    run _ _ (table_new lifetime seeded)
  induction actions with
  | nil => exact fun _ _ table => table
  | cons a rest ih => exact fun c log table => ih (c.after a) (a.log log) (table_after table a)

theorem valid_logAll (seeded : Bool) (actions : List RateAction) :
    ∀ w ∈ logAll seeded actions, w.Valid :=
  List.foldlRecOn (motive := fun log => ∀ w ∈ log, RateWrite.Valid w) actions _
    (valid_firstLog seeded) fun _ valid a _ => valid_log valid a

end RateCache

end LineCalc
