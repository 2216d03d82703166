import LineCalc.Rates.Cache
import LineCalc.Proofs.Entries
import LineCalc.Proofs.Result

/-!
# Rate tables

In a table that was made by storing rates no pair stands twice, so the neighbours of a code are
exactly the codes that it has a stored rate to.
-/

namespace LineCalc

/-! ## Stored pairs -/

namespace RateTable

variable {t : RateTable} {a b : String} {rate : Float}

theorem mem_neighbours (h : t.Distinct) :
    (b, rate) ∈ t.neighbours a ↔ t.direct? a b = some rate := by
  rw [direct?, ← Entries.Distinct.mem_iff_lookup h, neighbours, List.mem_filterMap]
  constructor
  · rintro ⟨⟨⟨a', b'⟩, r⟩, mem, eq⟩
    simp only [Option.ite_none_right_eq_some, Option.some.injEq, Prod.mk.injEq] at eq
    obtain ⟨rfl, rfl, rfl⟩ := eq
    exact mem
  · intro mem
    exact ⟨((a, b), rate), mem, by simp⟩

theorem mem_codes_of_direct? (h : t.direct? a b = some rate) : b ∈ t.codes := by
  have mem : ((a, b), rate) ∈ t := by
    obtain ⟨_, _, rfl, _⟩ := List.lookup_eq_some_iff.mp h
    simp
  rw [codes, List.mem_eraseDups, List.mem_flatMap]
  exact ⟨((a, b), rate), mem, by simp⟩

theorem distinct_store (h : t.Distinct) : (t.store a b rate).Distinct := by
  unfold store
  split
  · exact h.set _ _
  · exact (h.set _ _).set _ _

theorem distinct_ofQuotes (quotes : List (String × Float)) : (ofQuotes quotes).Distinct := by
  refine List.foldlRecOn (motive := Entries.Distinct) quotes _ List.nodup_nil fun t h q _ => ?_
  obtain ⟨code, rate⟩ := q
  show Entries.Distinct (storeQuote t code rate)
  unfold storeQuote
  split <;> exact distinct_store h

end RateTable

/-! ## Reachable caches -/

/-- A cache that comes from an empty one, or from one of the fallback rates, by setting rates,
applying quotes and forgetting them. -/
inductive RateCache.Reachable : RateCache → Prop
  | empty (lifetime : Float) : Reachable (.empty lifetime)
  | fallback (lifetime : Float) : Reachable (.withFallback lifetime)
  | setRate {c c' : RateCache} {source target : String} {rate : Float} :
      Reachable c → c.setRate source target rate = .ok c' → Reachable c'
  | update {c c' : RateCache} {quotes : List (String × Json)} {time : Float} :
      Reachable c → c.update quotes time = .ok c' → Reachable c'
  | clear {c : RateCache} : Reachable c → Reachable c.clear

theorem RateCache.table_setQuotes (c : RateCache) (quotes : List (String × Float)) :
    (c.setQuotes quotes).table = .ofQuotes quotes :=
  rfl

theorem RateCache.Reachable.distinct {c : RateCache} (h : c.Reachable) : c.table.Distinct := by
  -- Only `store` writes to a table, and it sets each of its two pairs in place.
  induction h with
  | empty | clear => exact List.nodup_nil
  | fallback =>
    rw [withFallback, table_setQuotes]
    exact RateTable.distinct_ofQuotes _
  | setRate _ step ih =>
    unfold RateCache.setRate at step
    split at step
    · cases step
    · cases step
      split
      · exact ih
      · exact RateTable.distinct_store ih
  | update _ step ih =>
    obtain ⟨quotes, _, rfl⟩ := map_ok_iff.mp step
    exact RateTable.distinct_ofQuotes quotes

end LineCalc
