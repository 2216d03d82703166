import LineCalc.Proofs.Rates.Reciprocal
import LineCalc.Proofs.Rates.Routes

/-!
# Which codes can be converted

A rate that is not zero is stored for both directions, so where all rates are positive every stored
pair has its opposite, and a way can be walked back. The codes then fall into classes: within a
class each code can be converted to each, and to none of another class.

Results:
1. `RateTable.twoWay_ofWrites`: positive rates leave no pair without its opposite.
2. `convertible_equivalence`: if only positive rates are set, to be convertible is an equivalence.
-/

namespace LineCalc

namespace RateTable

variable {t : RateTable}

/-- There is a rate from one code to another. -/
def Convertible (t : RateTable) (source target : String) : Prop :=
  (t.rate? source target).isSome = true

/-- Where stored pairs have their opposites, to be convertible is an equivalence. -/
theorem TwoWay.equivalence (twoWay : t.TwoWay) (distinct : t.Distinct) :
    Equivalence t.Convertible := by
  refine ⟨fun a => ?_, fun {a b} forth => ?_, fun {a b c} first second => ?_⟩
  · exact (isSome_rate?_iff distinct).mpr ⟨[], .start⟩
  · obtain ⟨way, isWay⟩ := (isSome_rate?_iff distinct).mp forth
    exact (isSome_rate?_iff distinct).mpr ⟨_, isWay.backwards twoWay⟩
  · obtain ⟨way, isWay⟩ := (isSome_rate?_iff distinct).mp first
    obtain ⟨other, next⟩ := (isSome_rate?_iff distinct).mp second
    exact (isSome_rate?_iff distinct).mpr ⟨_, isWay.append next⟩

end RateTable

/-! ## Positive rates -/

/-- What is set is a positive rate. Quotes may be any. -/
def RateAction.IsPositive : RateAction → Prop
  | .set _ _ rate => 0 < rate
  | .apply .. | .clear => True

variable {log : List RateWrite}

namespace RateWrite

/-- A write of a rate that is not zero stores something under both of its pairs. -/
theorem isSome_stored?_iff {w : RateWrite} (nonzero : (w.rate == 0) = false) {a b : String} :
    (w.stored? a b).isSome = true ↔ w.Between a b := by
  rw [stored?, Between]
  split
  · next own => simp [own]
  · next other => simp [other, nonzero]

theorem pos_of_isAdmissible {code : String} {rate : Float}
    (admissible : isAdmissible code rate = true) : 0 < rate := by
  simp only [isAdmissible, Bool.and_eq_true, decide_eq_true_eq] at admissible
  exact admissible.2

theorem rate_pos_of_mem_ofQuotes {quotes : List (String × Float)}
    (admissible : ∀ q ∈ quotes, isAdmissible q.1 q.2 = true) :
    ∀ w ∈ ofQuotes quotes, 0 < w.rate := by
  intro w mem
  obtain ⟨q, mem, eq⟩ := List.mem_map.mp (List.mem_reverse.mp mem)
  rw [← eq, rate_ofQuote]
  exact pos_of_isAdmissible (admissible q mem)

end RateWrite

namespace RateTable

theorem distinct_ofWrites (log : List RateWrite) : (ofWrites log).Distinct := by
  induction log with
  | nil => exact List.nodup_nil
  | cons w earlier ih => exact distinct_store ih

theorem twoWay_ofWrites (valid : ∀ w ∈ log, w.Valid)
    (positive : ∀ w ∈ log, 0 < w.rate) : (ofWrites log).TwoWay := by
  intro a b stored
  rw [direct?_ofWrites valid, List.findSome?_isSome_iff] at stored ⊢
  obtain ⟨w, mem, some⟩ := stored
  have nonzero := Decimal.beq_zero_of_pos (positive w mem)
  exact ⟨w, mem, (RateWrite.isSome_stored?_iff nonzero).mpr
    ((RateWrite.isSome_stored?_iff nonzero).mp some).symm⟩

end RateTable

/-- Quotes that count are positive, so an action that sets none but a positive rate writes none
but positive rates. -/
theorem RateAction.IsPositive.rate_pos {a : RateAction} (positive : a.IsPositive)
    (earlier : ∀ w ∈ log, 0 < w.rate) : ∀ w ∈ a.log log, 0 < w.rate := by
  cases a with
  | set source target rate =>
    rw [RateAction.log]
    split
    · exact List.forall_mem_cons.mpr ⟨positive, earlier⟩
    · exact earlier
  | apply quotes time =>
    rw [RateAction.log]
    split
    · next quotes eq =>
      obtain ⟨entries, -, eq⟩ := bind_ok_iff.mp eq
      exact RateWrite.rate_pos_of_mem_ofQuotes (isAdmissible_of_mem_admissibleQuotes eq)
    · exact earlier
  | clear => exact List.forall_mem_nil _

namespace RateCache

theorem rate_pos_of_mem_firstLog (seeded : Bool) : ∀ w ∈ firstLog seeded, 0 < w.rate := by
  cases seeded with
  | false => exact List.forall_mem_nil _
  | true => exact RateWrite.rate_pos_of_mem_ofQuotes isAdmissible_of_mem_fallbackQuotes

theorem rate_pos_of_mem_logAll (seeded : Bool) {actions : List RateAction}
    (positive : ∀ a ∈ actions, a.IsPositive) : ∀ w ∈ logAll seeded actions, 0 < w.rate :=
  List.foldlRecOn (motive := fun log => ∀ w ∈ log, 0 < RateWrite.rate w) actions _
    (rate_pos_of_mem_firstLog seeded) fun _ earlier a mem => (positive a mem).rate_pos earlier

end RateCache

/-! ## Caches -/

/-- Whatever rates a cache is given, as long as those that are set singly are positive: to be
convertible is an equivalence on codes, and two codes that can each be converted to a third can be
converted to each other in both directions. -/
theorem convertible_equivalence (lifetime : Float) (seeded : Bool) {actions : List RateAction}
    (positive : ∀ a ∈ actions, a.IsPositive) :
    let t := ((RateCache.new lifetime seeded).afterAll actions).table
    Equivalence t.Convertible ∧
      ∀ a b c, t.Convertible a c → t.Convertible b c → t.Convertible a b ∧ t.Convertible b a := by
  intro t
  have valid := RateCache.valid_logAll seeded actions
  have made : t = .ofWrites (RateCache.logAll seeded actions) :=
    RateCache.table_afterAll lifetime seeded actions
  have equivalence : Equivalence t.Convertible := by
    rw [made]
    exact (RateTable.twoWay_ofWrites valid (RateCache.rate_pos_of_mem_logAll seeded positive))
      |>.equivalence (RateTable.distinct_ofWrites _)
  refine ⟨equivalence, fun a b c toThird fromOther => ?_⟩
  have forth := equivalence.trans toThird (equivalence.symm fromOther)
  exact ⟨forth, equivalence.symm forth⟩

/-- Two codes that have rates to a third. -/
theorem convertible_equivalence_exThird :
    let actions := [RateAction.set "a" "c" 2, .set "b" "c" 4]
    let t := ((RateCache.new 60 false).afterAll actions).table
    (∀ a ∈ actions, a.IsPositive) ∧ t.Convertible "A" "C" ∧ t.Convertible "B" "C" ∧
      t.Convertible "A" "B" ∧ t.Convertible "B" "A" := by
  intro actions t
  have positive : ∀ a ∈ actions, a.IsPositive := by
    intro a mem
    simp only [actions, List.mem_cons, List.not_mem_nil, or_false] at mem
    rcases mem with rfl | rfl <;> show (0 : Float) < _ <;> decide +kernel
  have first : t.Convertible "A" "C" := by
    show Option.isSome _ = true
    decide +kernel
  have second : t.Convertible "B" "C" := by
    show Option.isSome _ = true
    decide +kernel
  exact ⟨positive, first, second,
    (convertible_equivalence 60 false positive).2 "A" "B" "C" first second⟩

/-- With a rate of zero there is a rate in one direction only. -/
example :
    let t := ((RateCache.new 60 false).afterAll [.set "A" "B" 0]).table
    t.rate? "A" "B" = some 0 ∧ t.rate? "B" "A" = none := by
  decide +kernel

end LineCalc
