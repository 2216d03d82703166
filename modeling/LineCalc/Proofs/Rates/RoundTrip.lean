import LineCalc.Proofs.Decimal.ExactValue
import LineCalc.Proofs.Rates.Convertible
import LineCalc.Proofs.Rates.Routes

/-!
# There and back

Computed exactly, a rate along a way and the rate back along the same way are reciprocal. But the
way back is searched for on its own. Where a pair is not stored there may be several ways of the
fewest pairs; both searches take the first that they come to, and these need not be the same. Then
an amount that is converted there and back is another amount, as far apart as the two ways are.

Results:
1. `exactRate?_eq_along_route`: the exact rate is the product of the exact stored rates along the
   route that the rate itself is found along.
2. `exactRates_cancel_iff`: rates there and back cancel exactly if the two routes agree.
3. `exact_rates_cancel`: they cancel if all ways of the fewest pairs agree; so they do for a stored
   pair, and for all pairs if everything was written against the base code.
4. `exact_rates_of_square`: rates in a square of four codes that do not cancel.
-/

namespace LineCalc

/-! ## Exact rates -/

/-- What a write stores under a pair, computed exactly. -/
def RateWrite.exactPair? (w : RateWrite) (a b : String) : Option ℚ :=
  if w.source = a ∧ w.target = b then some (Decimal.exactValue w.rate)
  else if w.source = b ∧ w.target = a ∧ (w.rate == 0) = false then
    some (1 / Decimal.exactValue w.rate)
  else none

/-- What writes leave under a pair, computed exactly. -/
def exactStored? (log : List RateWrite) (a b : String) : Option ℚ := log.findSome? (·.exactPair? a b)

/-- An exact rate along one stored pair more. -/
def extendExact (log : List RateWrite) (rate : ℚ) (code next : String) : ℚ :=
  rate * (exactStored? log code next).getD 0

/-- How much of `target` one `source` is worth after writes, computed exactly. -/
def exactRate? (log : List RateWrite) (source target : String) : Option ℚ :=
  let source := Text.upper source
  let target := Text.upper target
  if source = target then some 1
  else exactStored? log source target <|>
    (RateTable.ofWrites log).searchWith (extendExact log) source target 1

/-- The product of the exact stored rates along a way. -/
def exactAlong (log : List RateWrite) (way : List (String × String)) : ℚ :=
  (way.map fun pair => (exactStored? log pair.1 pair.2).getD 0).prod

/-- All ways of the fewest pairs between two codes have the same exact rate. -/
def WaysAgree (log : List RateWrite) (source target : String) : Prop :=
  ∀ way other, (RateTable.ofWrites log).Fewest source target way →
    (RateTable.ofWrites log).Fewest source target other → exactAlong log way = exactAlong log other

section

variable {w : RateWrite} {log : List RateWrite} {a b : String} {way : List (String × String)}
variable {x : ℚ}

theorem RateWrite.isSome_exactPair? (w : RateWrite) (a b : String) :
    (w.exactPair? a b).isSome = (w.stored? a b).isSome := by
  rw [exactPair?, stored?]
  split
  · rfl
  · split <;> rfl

theorem isSome_exactStored? (valid : ∀ w ∈ log, w.Valid) (a b : String) :
    (exactStored? log a b).isSome = ((RateTable.ofWrites log).direct? a b).isSome := by
  rw [RateTable.direct?_ofWrites valid, exactStored?, Bool.eq_iff_iff,
    List.findSome?_isSome_iff, List.findSome?_isSome_iff]
  simp only [RateWrite.isSome_exactPair?]

theorem along_extendExact (log : List RateWrite) (way : List (String × String)) :
    RateTable.along (extendExact log) 1 way = exactAlong log way := by
  rw [exactAlong, List.prod_eq_foldl, List.foldl_map]
  rfl

/-- The exact rate is found along the route that the rate itself is found along. -/
theorem exactRate?_eq_along_route (valid : ∀ w ∈ log, w.Valid) (a b : String) :
    exactRate? log a b =
      ((RateTable.ofWrites log).route? (Text.upper a) (Text.upper b)).map (exactAlong log) := by
  rw [exactRate?, RateTable.route?]
  split
  · rfl
  · rw [← isSome_exactStored? valid]
    cases stored : exactStored? log (Text.upper a) (Text.upper b) with
    | some rate => simp [exactAlong, stored]
    | none =>
      have searched := RateTable.searchWith_eq (RateTable.ofWrites log) (extendExact log)
        (Text.upper a) (Text.upper b) 1
      simpa [funext (along_extendExact log)] using searched

/-! ## The way back -/

/-- What a write of a rate that is not zero stores under a pair and its opposite is reciprocal. -/
theorem RateWrite.Valid.exactPair?_opposite (valid : w.Valid) (nonzero : (w.rate == 0) = false)
    (a b : String) : w.exactPair? b a = (w.exactPair? a b).map (·⁻¹) := by
  have own : w.exactPair? w.source w.target = some (Decimal.exactValue w.rate) := if_pos ⟨rfl, rfl⟩
  have opposite : w.exactPair? w.target w.source = some (Decimal.exactValue w.rate)⁻¹ := by
    rw [exactPair?, if_neg fun both => valid.different both.1, if_pos ⟨rfl, rfl, nonzero⟩, one_div]
  by_cases forth : w.source = a ∧ w.target = b
  · obtain ⟨rfl, rfl⟩ := forth
    rw [own, opposite]
    rfl
  · by_cases back : w.source = b ∧ w.target = a
    · obtain ⟨rfl, rfl⟩ := back
      rw [own, opposite, Option.map_some, inv_inv]
    · simp [exactPair?, forth, back, nonzero]

section

variable (valid : ∀ w ∈ log, w.Valid) (positive : ∀ w ∈ log, 0 < w.rate)

include valid positive

theorem exactStored?_opposite (a b : String) :
    exactStored? log b a = (exactStored? log a b).map (·⁻¹) := by
  induction log with
  | nil => rfl
  | cons w earlier ih =>
    obtain ⟨validHead, valid⟩ := List.forall_mem_cons.mp valid
    obtain ⟨positiveHead, positive⟩ := List.forall_mem_cons.mp positive
    have opposite := validHead.exactPair?_opposite (Decimal.beq_zero_of_pos positiveHead) a b
    rw [exactStored?, List.findSome?_cons, opposite, exactStored?, List.findSome?_cons]
    cases w.exactPair? a b with
    | some rate => rfl
    | none => exact ih valid positive

/-- The exact rate along a way backwards is the reciprocal of that along the way. -/
theorem exactAlong_backwards (way : List (String × String)) :
    exactAlong log (RateTable.backwards way) = (exactAlong log way)⁻¹ := by
  have each (pair : String × String) : (exactStored? log pair.swap.1 pair.swap.2).getD 0 =
      ((exactStored? log pair.1 pair.2).getD 0)⁻¹ := by
    rw [Prod.fst_swap, Prod.snd_swap, exactStored?_opposite valid positive]
    cases exactStored? log pair.1 pair.2 <;> simp
  have reversed : (RateTable.backwards way).Perm (way.map Prod.swap) := List.reverse_perm _
  rw [exactAlong, (reversed.map _).prod_eq, List.map_map, exactAlong, List.prod_inv, List.map_map]
  exact congrArg List.prod (List.map_congr_left fun pair _ => each pair)

theorem exactStored?_pos (stored : exactStored? log a b = some x) : 0 < x := by
  obtain ⟨w, mem, stored⟩ := List.exists_of_findSome?_eq_some stored
  have pos := Decimal.exactValue_pos (valid w mem).isFinite (positive w mem)
  rw [RateWrite.exactPair?] at stored
  split at stored
  · cases stored
    exact pos
  · split at stored
    · cases stored
      exact one_div_pos.mpr pos
    · cases stored

theorem exactAlong_pos (isWay : (RateTable.ofWrites log).Way a b way) : 0 < exactAlong log way := by
  induction isWay with
  | start => exact one_pos
  | @step code next way _ stored ih =>
    rw [← isSome_exactStored? valid] at stored
    obtain ⟨x, stored⟩ := Option.isSome_iff_exists.mp stored
    have last := exactStored?_pos valid positive stored
    have value : exactAlong log (way ++ [(code, next)]) = exactAlong log way * x := by
      simp [exactAlong, stored]
    rw [value]
    exact mul_pos ih last

/-- The rates there and back cancel exactly if the route back is as good as the route there. -/
theorem exactRates_cancel_iff {way back : List (String × String)} {y : ℚ}
    (there : (RateTable.ofWrites log).route? (Text.upper a) (Text.upper b) = some way)
    (home : (RateTable.ofWrites log).route? (Text.upper b) (Text.upper a) = some back)
    (first : exactRate? log a b = some x) (second : exactRate? log b a = some y) :
    x * y = 1 ↔ exactAlong log way = exactAlong log (RateTable.backwards back) := by
  rw [exactRate?_eq_along_route valid, there, Option.map_some, Option.some_inj] at first
  rw [exactRate?_eq_along_route valid, home, Option.map_some, Option.some_inj] at second
  have isWay := (RateTable.fewest_of_route? (RateTable.distinct_ofWrites log) home).isWay
  have nonzero := (exactAlong_pos valid positive isWay).ne'
  rw [exactAlong_backwards valid positive, ← first, ← second]
  exact mul_eq_one_iff_eq_inv₀ nonzero

end

/-! ## Where there is one way only -/

section

variable {t : RateTable}

theorem RateTable.Fewest.eq_nil (h : t.Fewest a a way) : way = [] :=
  List.length_eq_zero_iff.mp (Nat.le_zero.mp (h.least [] .start))

/-- A stored pair is the only way of the fewest pairs between its codes. -/
theorem RateTable.Fewest.eq_single (h : t.Fewest a b way)
    (stored : (t.direct? a b).isSome = true) (different : a ≠ b) : way = [(a, b)] := by
  have short := h.least _ (.single stored)
  cases h.isWay with
  | start => exact absurd rfl different
  | @step code _ rest isWay _ =>
    cases isWay with
    | start => rfl
    | step => simp at short

/-- One of the codes of every stored pair is the base code. -/
def RateTable.IsStar (t : RateTable) : Prop :=
  ∀ a b, (t.direct? a b).isSome = true → a = baseCode ∨ b = baseCode

/-- In a star a way leads to the same code, along a stored pair, or over the base code. -/
theorem RateTable.Way.over_base (star : t.IsStar) (isWay : t.Way a b way) :
    a = b ∨ (t.direct? a b).isSome = true ∨
      (t.direct? a baseCode).isSome = true ∧ (t.direct? baseCode b).isSome = true := by
  induction isWay with
  | start => exact .inl rfl
  | @step code next way _ stored ih =>
    rcases ih with rfl | direct | ⟨toBase, -⟩
    · exact .inr (.inl stored)
    · rcases star code next stored with rfl | rfl
      · exact .inr (.inr ⟨direct, stored⟩)
      · rcases star a code direct with rfl | rfl
        · exact .inl rfl
        · exact .inr (.inl direct)
    · rcases star code next stored with rfl | rfl
      · exact .inr (.inr ⟨toBase, stored⟩)
      · exact .inr (.inl toBase)

/-- In a star there is one way of the fewest pairs between two codes. -/
theorem RateTable.Fewest.eq_of_star (star : t.IsStar) (h : t.Fewest a b way) : way =
    if a = b then [] else if (t.direct? a b).isSome then [(a, b)]
      else [(a, baseCode), (baseCode, b)] := by
  split
  · next same =>
    subst same
    exact h.eq_nil
  · next different =>
    split
    · next stored => exact h.eq_single stored different
    · next notStored =>
      obtain ⟨toBase, fromBase⟩ : (t.direct? a baseCode).isSome = true ∧
          (t.direct? baseCode b).isSome = true := by
        rcases h.isWay.over_base star with same | stored | both
        · exact absurd same different
        · exact absurd stored notStored
        · exact both
      have short := h.least _ ((Way.single toBase).step fromBase)
      cases h.isWay with
      | start => exact absurd rfl different
      | @step code _ rest isWay last =>
        cases isWay with
        | start => exact absurd last notStored
        | @step first _ rest isWay middle =>
          cases isWay with
          | step => simp at short
          | start =>
            -- The code between them is the base code, or else both ends are.
            rcases star a code middle with rfl | rfl
            · rcases star code b last with rfl | rfl
              · rfl
              · exact absurd rfl different
            · rfl

/-- Ways agree where there is only one. -/
theorem waysAgree_of_eq {only : List (String × String)}
    (unique : ∀ way, (RateTable.ofWrites log).Fewest a b way → way = only) :
    WaysAgree log a b := by
  intro way other first second
  rw [unique way first, unique other second]

theorem isStar_ofWrites (valid : ∀ w ∈ log, w.Valid)
    (base : ∀ w ∈ log, w.source = baseCode ∨ w.target = baseCode) :
    (RateTable.ofWrites log).IsStar := by
  intro a b stored
  rw [RateTable.direct?_ofWrites valid, List.findSome?_isSome_iff] at stored
  obtain ⟨w, mem, stored⟩ := stored
  have between : w.Between a b := by
    by_contra other
    obtain ⟨own, opposite⟩ := not_or.mp other
    rw [RateWrite.stored?_of_other own opposite] at stored
    cases stored
  rcases between with ⟨rfl, rfl⟩ | ⟨rfl, rfl⟩
  · exact base w mem
  · exact (base w mem).symm

end

end

/-! ## Caches -/

/-- As long as the rates that are set singly are positive: the exact rates are found along the
routes that the rates are found along, and in both directions or in none. Where all ways of the
fewest pairs between two codes agree, the rates there and back cancel, so that any amount comes back
as it was. A stored pair is the only way of the fewest pairs; and if all that was written since the
table was last replaced was against the base code, there is only one such way between any codes. -/
theorem exact_rates_cancel (lifetime : Float) (seeded : Bool) {actions : List RateAction}
    (positive : ∀ a ∈ actions, a.IsPositive) :
    let t := ((RateCache.new lifetime seeded).afterAll actions).table
    let log := RateCache.logAll seeded actions
    (∀ a b, t.rate? a b = (t.route? (Text.upper a) (Text.upper b)).map t.rateAlong ∧
        exactRate? log a b = (t.route? (Text.upper a) (Text.upper b)).map (exactAlong log) ∧
        (exactRate? log a b).isSome = (exactRate? log b a).isSome) ∧
      (∀ a b, WaysAgree log (Text.upper a) (Text.upper b) → ∀ x y,
        exactRate? log a b = some x → exactRate? log b a = some y →
          x * y = 1 ∧ ∀ amount, amount * x * y = amount) ∧
      (∀ a b, (t.direct? a b).isSome = true → WaysAgree log a b) ∧
      ((∀ w ∈ log, w.source = baseCode ∨ w.target = baseCode) → ∀ a b, WaysAgree log a b) := by
  intro t log
  have valid : ∀ w ∈ log, w.Valid := RateCache.valid_logAll seeded actions
  have pos : ∀ w ∈ log, 0 < w.rate := RateCache.rate_pos_of_mem_logAll seeded positive
  have made : t = .ofWrites log := RateCache.table_afterAll lifetime seeded actions
  have distinct := RateTable.distinct_ofWrites log
  have twoWay := RateTable.twoWay_ofWrites valid pos
  have rates (a b : String) := RateTable.rate?_eq_along_route distinct a b
  have exact (a b : String) := exactRate?_eq_along_route valid a b
  rw [made]
  refine ⟨fun a b => ⟨rates a b, exact a b, ?_⟩, ?_, ?_, ?_⟩
  · -- To be convertible is symmetric, and there is an exact rate where there is a rate.
    have same (a b : String) : (exactRate? log a b).isSome =
        ((RateTable.ofWrites log).rate? a b).isSome := by
      rw [exact, rates, Option.isSome_map, Option.isSome_map]
    have equivalence := twoWay.equivalence distinct
    rw [same, same, Bool.eq_iff_iff]
    exact ⟨equivalence.symm, equivalence.symm⟩
  · intro a b agree x y first second
    obtain ⟨way, there, -⟩ := Option.map_eq_some_iff.mp ((exact a b).symm.trans first)
    obtain ⟨back, home, -⟩ := Option.map_eq_some_iff.mp ((exact b a).symm.trans second)
    have cancel : x * y = 1 := by
      rw [exactRates_cancel_iff valid pos there home first second]
      exact agree _ _ (RateTable.fewest_of_route? distinct there)
        ((RateTable.fewest_of_route? distinct home).backwards twoWay)
    exact ⟨cancel, fun amount => by rw [mul_assoc, cancel, mul_one]⟩
  · intro a b stored
    by_cases same : a = b
    · subst same
      exact waysAgree_of_eq fun way h => h.eq_nil
    · exact waysAgree_of_eq fun way h => h.eq_single stored same
  · intro base a b
    exact waysAgree_of_eq fun way h => h.eq_of_star (isStar_ofWrites valid base)

/-- Two codes with rates against the dollar. -/
theorem exact_rates_cancel_exDollar :
    let actions := [RateAction.set "A" "USD" 2, .set "USD" "B" 4]
    let log := RateCache.logAll false actions
    (∀ a ∈ actions, a.IsPositive) ∧ WaysAgree log (Text.upper "A") (Text.upper "B") ∧
      exactRate? log "A" "B" = some 8 ∧ exactRate? log "B" "A" = some (1 / 8) ∧
      ∀ amount : ℚ, amount * 8 * (1 / 8) = amount := by
  intro actions log
  have positive : ∀ a ∈ actions, a.IsPositive := by
    intro a mem
    simp only [actions, List.mem_cons, List.not_mem_nil, or_false] at mem
    rcases mem with rfl | rfl <;> show (0 : Float) < _ <;> decide +kernel
  have base : ∀ w ∈ log, w.source = baseCode ∨ w.target = baseCode := by decide +kernel
  have first : exactRate? log "A" "B" = some 8 := by decide +kernel
  have second : exactRate? log "B" "A" = some (1 / 8) := by decide +kernel
  obtain ⟨-, cancel, -, star⟩ := exact_rates_cancel 60 false positive
  have agree : WaysAgree log (Text.upper "A") (Text.upper "B") := star base _ _
  exact ⟨positive, agree, first, second, (cancel "A" "B" agree 8 (1 / 8) first second).2⟩

/-- In a square of codes, the way there leads over the one corner and the way back over the
other. -/
theorem exact_rates_of_square :
    let actions := [RateAction.set "A" "C" 2, .set "B" "D" 1, .set "A" "D" 1, .set "C" "B" 1]
    let t := ((RateCache.new 60 false).afterAll actions).table
    let log := RateCache.logAll false actions
    (∀ a ∈ actions, a.IsPositive) ∧
      (t.rate? "A" "B" = some 2 ∧ t.rate? "B" "A" = some 1) ∧
      exactRate? log "A" "B" = some 2 ∧ exactRate? log "B" "A" = some 1 ∧ (2 : ℚ) * 1 ≠ 1 := by
  intro actions t log
  have positive : ∀ a ∈ actions, a.IsPositive := by
    intro a mem
    simp only [actions, List.mem_cons, List.not_mem_nil, or_false] at mem
    rcases mem with rfl | rfl | rfl | rfl <;> show (0 : Float) < _ <;> decide +kernel
  refine ⟨positive, ⟨?_, ?_⟩, ?_, ?_, by norm_num⟩ <;> decide +kernel

end LineCalc
