import LineCalc.Proofs.Rates.Writes

/-!
# Reciprocal rates

A rate is stored together with its reciprocal, but a rate of zero is stored alone and does not take
away what an earlier write has left under the opposite pair; and the reciprocal of a rate close to
zero is infinite.

Results:
1. `reciprocal_afterAll_iff`: exactly when the table of a cache is one of reciprocal rates.
2. `zeroed_and_least_not_reciprocal`: it is not after a pair was set to two and then to zero, nor
   after a pair was set to the least positive number.
-/

namespace LineCalc

/-- All stored rates are finite and not negative. Opposite to a rate that is not zero stands its
reciprocal, or the rate that it is the reciprocal of; opposite to zero stands nothing. -/
structure RateTable.Reciprocal (t : RateTable) : Prop where
  number : ∀ a b rate, t.direct? a b = some rate → rate.isFinite = true ∧ 0 ≤ rate
  inverse : ∀ a b rate, t.direct? a b = some rate → (rate == 0) = false →
    ∃ opposite, t.direct? b a = some opposite ∧ (opposite = 1 / rate ∨ rate = 1 / opposite)
  zero : ∀ a b rate, t.direct? a b = some rate → (rate == 0) = true → t.direct? b a = none

namespace RateWrite

/-- A write in either direction between two codes. -/
def Between (a b : String) (w : RateWrite) : Prop :=
  w.source = a ∧ w.target = b ∨ w.source = b ∧ w.target = a

instance (a b : String) (w : RateWrite) : Decidable (w.Between a b) :=
  inferInstanceAs (Decidable (_ ∨ _))

/-- Of the writes between two codes, the latest first, the latest was of a rate with a finite
reciprocal; or it was of zero, and so were all earlier ones, in the same direction. -/
def Settled : List RateWrite → Prop
  | [] => True
  | w :: earlier =>
    if w.rate == 0 then ∀ v ∈ earlier, (v.rate == 0) = true ∧ v.source = w.source
    else (1 / w.rate).isFinite = true

variable {w v : RateWrite} {earlier log : List RateWrite} {a b : String} {rate : Float}

/-- Only writes between two codes store anything under their pairs. -/
theorem findSome?_between (log : List RateWrite) :
    (log.filter fun w => w.Between a b).findSome? (·.stored? a b) =
      log.findSome? (·.stored? a b) := by
  induction log with
  | nil => rfl
  | cons w earlier ih =>
    by_cases between : w.Between a b
    · rw [List.filter_cons_of_pos (by simpa using between), List.findSome?_cons,
        List.findSome?_cons, ih]
    · obtain ⟨other, opposite⟩ := not_or.mp between
      rw [List.filter_cons_of_neg (by simpa using between), List.findSome?_cons, ih,
        stored?_of_other other opposite]

/-- Nothing is stored opposite to a write exactly by writes of zero in the same direction. -/
theorem stored?_opposite_eq_none_iff (valid : v.Valid) (between : v.Between w.source w.target)
    (different : w.source ≠ w.target) :
    v.stored? w.target w.source = none ↔ (v.rate == 0) = true ∧ v.source = w.source := by
  rcases between with ⟨source, target⟩ | ⟨source, target⟩
  · rw [← source, ← target, valid.stored?_opposite]
    simp
  · rw [← source, ← target, stored?_self]
    simp [source, target, different.symm]

end RateWrite

namespace RateTable

open RateWrite (Between Settled)

variable {w : RateWrite} {earlier log : List RateWrite} {a b : String} {rate : Float}

theorem direct?_between (valid : ∀ w ∈ log, w.Valid) {c d : String}
    (pair : c = a ∧ d = b ∨ c = b ∧ d = a) :
    (ofWrites log).direct? c d =
      (log.filter fun w => w.Between a b).findSome? (·.stored? c d) := by
  have same (w : RateWrite) : w.Between a b ↔ w.Between c d := by
    rcases pair with ⟨rfl, rfl⟩ | ⟨rfl, rfl⟩
    · exact Iff.rfl
    · exact or_comm
  simp only [same]
  rw [RateWrite.findSome?_between, direct?_ofWrites valid]

/-- What the latest write between two codes, and the earlier ones, have left under their pairs. -/
structure Left (t : RateTable) (w : RateWrite) (earlier : List RateWrite) : Prop where
  own : t.direct? w.source w.target = some w.rate
  opposite : (w.rate == 0) = false → t.direct? w.target w.source = some (1 / w.rate)
  zero : (w.rate == 0) = true →
    (t.direct? w.target w.source = none ↔
      ∀ v ∈ earlier, (v.rate == 0) = true ∧ v.source = w.source)

theorem left_of_latest (valid : ∀ w ∈ log, w.Valid)
    (latest : (log.filter fun v => v.Between a b) = w :: earlier) :
    w.Valid ∧ w.Between a b ∧ Left (ofWrites log) w earlier := by
  have mem {v : RateWrite} (inList : v ∈ w :: earlier) : v.Valid ∧ v.Between a b := by
    rw [← latest, List.mem_filter, decide_eq_true_iff] at inList
    exact ⟨valid v inList.1, inList.2⟩
  obtain ⟨validHead, between⟩ := mem List.mem_cons_self
  have under := direct?_between valid between
  have opposite := direct?_between valid (between.symm.imp And.symm And.symm)
  rw [latest, List.findSome?_cons] at under opposite
  rw [RateWrite.stored?_self] at under
  rw [validHead.stored?_opposite] at opposite
  refine ⟨validHead, between, under, ?_, ?_⟩
  · intro nonzero
    rw [opposite, nonzero]
    rfl
  · intro zero
    rw [opposite, if_pos zero, List.findSome?_eq_none_iff]
    refine forall₂_congr fun v inList => ?_
    obtain ⟨validOne, betweenOne⟩ := mem (List.mem_cons_of_mem _ inList)
    have same : v.Between w.source w.target := by
      rcases between with ⟨rfl, rfl⟩ | ⟨rfl, rfl⟩
      · exact betweenOne
      · exact betweenOne.symm
    exact RateWrite.stored?_opposite_eq_none_iff validOne same validHead.different

/-- How a stored rate, and what stands opposite to it, come from one write. -/
inductive FromWrite (w : RateWrite) : Float → Option Float → Prop
  | zero : (w.rate == 0) = true → FromWrite w w.rate none
  | rate : (w.rate == 0) = false → FromWrite w w.rate (some (1 / w.rate))
  | reciprocal : (w.rate == 0) = false → (1 / w.rate).isFinite = true →
      FromWrite w (1 / w.rate) (some w.rate)

/-- After writes that leave nothing of earlier ones, what is stored comes from the latest. -/
theorem fromWrite_of_settled (valid : ∀ w ∈ log, w.Valid)
    (settled : Settled (log.filter fun w => w.Between a b))
    (stored : (ofWrites log).direct? a b = some rate) :
    ∃ w, w.Valid ∧ FromWrite w rate ((ofWrites log).direct? b a) := by
  cases latest : log.filter fun w => w.Between a b with
  | nil =>
    rw [direct?_ofWrites valid, ← RateWrite.findSome?_between, latest] at stored
    cases stored
  | cons w earlier =>
    obtain ⟨validWrite, between, left⟩ := left_of_latest valid latest
    rw [latest, Settled] at settled
    refine ⟨w, validWrite, ?_⟩
    cases zero : w.rate == 0 with
    | true =>
      rw [if_pos zero] at settled
      have nothing := (left.zero zero).mpr settled
      rcases between with ⟨rfl, rfl⟩ | ⟨rfl, rfl⟩
      · rw [left.own] at stored
        cases stored
        rw [nothing]
        exact .zero zero
      · rw [nothing] at stored
        cases stored
    | false =>
      rw [zero, if_neg Bool.false_ne_true] at settled
      rcases between with ⟨rfl, rfl⟩ | ⟨rfl, rfl⟩
      · rw [left.own] at stored
        cases stored
        rw [left.opposite zero]
        exact .rate zero
      · rw [left.opposite zero] at stored
        cases stored
        rw [left.own]
        exact .reciprocal zero settled

/-- The writes leave a table of reciprocal rates exactly if, between any two codes, they leave
nothing of earlier writes. -/
theorem reciprocal_ofWrites_iff (valid : ∀ w ∈ log, w.Valid) :
    (ofWrites log).Reciprocal ↔ ∀ a b, Settled (log.filter fun w => w.Between a b) := by
  constructor
  · intro h a b
    cases latest : log.filter fun w => w.Between a b with
    | nil => trivial
    | cons w earlier =>
      obtain ⟨-, -, left⟩ := left_of_latest valid latest
      rw [Settled]
      split
      · next zero => exact (left.zero zero).mp (h.zero _ _ _ left.own zero)
      · next nonzero =>
        have nonzero := Bool.eq_false_iff.mpr nonzero
        exact (h.number _ _ _ (left.opposite nonzero)).1
  · intro settled
    have comes {a b : String} {rate : Float} (stored : (ofWrites log).direct? a b = some rate) :
        ∃ w other, (ofWrites log).direct? b a = other ∧ w.Valid ∧ FromWrite w rate other := by
      obtain ⟨w, validWrite, origin⟩ := fromWrite_of_settled valid (settled a b) stored
      exact ⟨w, _, rfl, validWrite, origin⟩
    have positive {w : RateWrite} (validWrite : w.Valid) (nonzero : (w.rate == 0) = false) :
        0 < 1 / w.rate :=
      Decimal.reciprocal_pos validWrite.isFinite (validWrite.pos nonzero)
    refine ⟨?_, ?_, ?_⟩
    · intro a b rate stored
      obtain ⟨w, other, -, validWrite, origin⟩ := comes stored
      cases origin with
      | zero | rate => exact ⟨validWrite.isFinite, validWrite.nonneg⟩
      | reciprocal nonzero finite =>
        exact ⟨finite, Decimal.nonneg_iff.mpr (.inr (positive validWrite nonzero))⟩
    · intro a b rate stored nonzero
      obtain ⟨w, other, opposite, validWrite, origin⟩ := comes stored
      cases origin with
      | zero zero =>
        rw [zero] at nonzero
        cases nonzero
      | rate => exact ⟨_, opposite, .inl rfl⟩
      | reciprocal => exact ⟨_, opposite, .inr rfl⟩
    · intro a b rate stored zero
      obtain ⟨w, other, opposite, validWrite, origin⟩ := comes stored
      cases origin with
      | zero => exact opposite
      | rate nonzero =>
        rw [nonzero] at zero
        cases zero
      | reciprocal nonzero =>
        rw [Decimal.beq_zero_of_pos (positive validWrite nonzero)] at zero
        cases zero

end RateTable

/-! ## Caches -/

/-- After any actions, the rates of a cache are reciprocal exactly if, of the writes between any two
codes since the table was last replaced, the latest was of a rate with a finite reciprocal, or it
was of zero and so were all others, in the same direction. -/
theorem reciprocal_afterAll_iff (lifetime : Float) (seeded : Bool) (actions : List RateAction) :
    ((RateCache.new lifetime seeded).afterAll actions).table.Reciprocal ↔
      ∀ a b, RateWrite.Settled
        ((RateCache.logAll seeded actions).filter fun w => w.Between a b) := by
  rw [RateCache.table_afterAll]
  exact RateTable.reciprocal_ofWrites_iff (RateCache.valid_logAll seeded actions)

/-- Setting a pair to two and then to zero leaves a half opposite to zero; the least positive
number has an infinite reciprocal. -/
theorem zeroed_and_least_not_reciprocal :
    let zeroed := (RateCache.new 60 false).afterAll [.set "A" "B" 2, .set "A" "B" 0]
    let least := (RateCache.new 60 false).afterAll [.set "A" "B" 5e-324]
    (zeroed.table.direct? "A" "B" = some 0 ∧ zeroed.table.direct? "B" "A" = some 0.5 ∧
        ¬zeroed.table.Reciprocal) ∧
      ∃ rate, least.table.direct? "B" "A" = some rate ∧ rate.isFinite = false ∧
        ¬least.table.Reciprocal := by
  intro zeroed least
  have zero : zeroed.table.direct? "A" "B" = some 0 := by decide +kernel
  have half : zeroed.table.direct? "B" "A" = some 0.5 := by decide +kernel
  have huge : least.table.direct? "B" "A" = some (1 / 5e-324) := by decide +kernel
  have infinite : (1 / 5e-324 : Float).isFinite = false := by decide +kernel
  refine ⟨⟨zero, half, fun h => ?_⟩, _, huge, infinite, fun h => ?_⟩
  · have nothing := h.zero "A" "B" 0 zero (by decide +kernel)
    rw [half] at nothing
    cases nothing
  · have finite := (h.number "B" "A" _ huge).1
    rw [infinite] at finite
    cases finite

end LineCalc
