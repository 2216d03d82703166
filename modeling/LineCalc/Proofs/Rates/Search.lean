import LineCalc.Proofs.Decimal.Product
import LineCalc.Proofs.Rates.Table

/-!
# The search for a rate

The search meets the codes level by level: at any time its queue holds what is left of one level
and, behind it, the beginning of the next. A code that is met is therefore met along a path of the
fewest stored pairs, and a search that ends without the target has met all that a path leads to.
-/

namespace LineCalc

open RateTable

/-! ## Paths -/

namespace RateTable

/-- The stored rates along the pairs that lead from one code to another. -/
inductive Path (t : RateTable) (source : String) : String → List Float → Prop
  | start : Path t source source []
  | step {code next : String} {rates : List Float} {rate : Float} :
      Path t source code rates → t.direct? code next = some rate →
        Path t source next (rates ++ [rate])

/-- The product of rates, taken from left to right. -/
def product (rates : List Float) : Float := rates.foldl (· * ·) 1

/-- A rate is the product along a path that no other path is shorter than. -/
def IsShortest (t : RateTable) (source target : String) (x : Float) : Prop :=
  ∃ rates, Path t source target rates ∧ x = product rates ∧
    ∀ others, Path t source target others → rates.length ≤ others.length

variable {t : RateTable} {source target code next : String} {rates : List Float} {rate x : Float}
variable {unmet unmet' : List String} {near found front back : List (String × Float)} {k : Nat}

theorem product_append_singleton : product (rates ++ [rate]) = product rates * rate := by
  rw [product, List.foldl_append]
  rfl

theorem Path.source_or_mem_codes (path : Path t source target rates) :
    target = source ∨ target ∈ t.codes := by
  cases path with
  | start => exact .inl rfl
  | step _ stored => exact .inr (mem_codes_of_direct? stored)

theorem Path.single (stored : t.direct? source target = some rate) : Path t source target [rate] :=
  .step .start stored

theorem Path.length_pos (path : Path t source target rates) (different : source ≠ target) :
    0 < rates.length := by
  cases path with
  | start => exact absurd rfl different
  | step => simp

/-! ## One step -/

/-- Meeting the target, it was not met, and a neighbour's rate leads to it. -/
theorem meet_target (h : meet target rate unmet near = .target x) :
    target ∈ unmet ∧ ∃ r, (target, r) ∈ near ∧ x = rate * r := by
  induction near generalizing unmet with
  | nil => cases h
  | cons p rest ih =>
    obtain ⟨next, r⟩ := p
    rw [meet] at h
    split at h
    · next fresh =>
      split at h
      · next eq =>
        subst eq
        cases h
        exact ⟨fresh, r, List.mem_cons_self, rfl⟩
      · split at h
        · next inner =>
          cases h
          obtain ⟨mem, r', near, eq⟩ := ih inner
          exact ⟨(List.mem_filter.mp mem).1, r', List.mem_cons_of_mem _ near, eq⟩
        · cases h
    · obtain ⟨mem, r', near, eq⟩ := ih h
      exact ⟨mem, r', List.mem_cons_of_mem _ near, eq⟩

/-- What a step does that does not come to the target: it meets all neighbours, and those that were
not met before are found with the rates to them. -/
structure Meets (target : String) (rate : Float) (unmet unmet' : List String)
    (near found : List (String × Float)) : Prop where
  subset : ∀ code ∈ unmet', code ∈ unmet
  closed : ∀ code r, (code, r) ∈ near → code ∉ unmet'
  met : ∀ code ∈ unmet, code ∉ unmet' → code ∈ found.map (·.1)
  reached : ∀ p ∈ found, p.1 ∈ unmet ∧ ∃ r, (p.1, r) ∈ near ∧ p.2 = rate * r
  other : target ∈ unmet → target ∈ unmet'

theorem Meets.cons_old (h : Meets target rate unmet unmet' near found) {r : Float}
    (old : next ∉ unmet) : Meets target rate unmet unmet' ((next, r) :: near) found := by
  refine ⟨h.subset, ?_, h.met, ?_, h.other⟩
  · intro code r' mem
    rcases List.mem_cons.mp mem with eq | mem
    · cases eq
      exact fun mem => old (h.subset next mem)
    · exact h.closed code r' mem
  · intro p mem
    obtain ⟨fresh, r', near, eq⟩ := h.reached p mem
    exact ⟨fresh, r', List.mem_cons_of_mem _ near, eq⟩

theorem Meets.cons_fresh (h : Meets target rate (unmet.filter (· ≠ next)) unmet' near found)
    {r : Float} (fresh : next ∈ unmet) (ne : next ≠ target) :
    Meets target rate unmet unmet' ((next, r) :: near) ((next, rate * r) :: found) := by
  have mem_rest {code : String} : code ∈ unmet.filter (· ≠ next) ↔ code ∈ unmet ∧ code ≠ next := by
    simp
  refine ⟨?_, ?_, ?_, ?_, ?_⟩
  · intro code mem
    exact (mem_rest.mp (h.subset code mem)).1
  · intro code r' mem
    rcases List.mem_cons.mp mem with eq | mem
    · cases eq
      exact fun mem => (mem_rest.mp (h.subset next mem)).2 rfl
    · exact h.closed code r' mem
  · intro code mem notUnmet
    by_cases eq : code = next
    · subst eq
      exact List.mem_cons_self
    · exact List.mem_cons_of_mem _ (h.met code (mem_rest.mpr ⟨mem, eq⟩) notUnmet)
  · intro p mem
    rcases List.mem_cons.mp mem with rfl | mem
    · exact ⟨fresh, r, List.mem_cons_self, rfl⟩
    · obtain ⟨mem, r', near, eq⟩ := h.reached p mem
      exact ⟨(mem_rest.mp mem).1, r', List.mem_cons_of_mem _ near, eq⟩
  · exact fun mem => h.other (mem_rest.mpr ⟨mem, fun eq => ne eq.symm⟩)

theorem meets_of_meet (h : meet target rate unmet near = .codes unmet' found) :
    Meets target rate unmet unmet' near found := by
  induction near generalizing unmet unmet' found with
  | nil =>
    cases h
    exact ⟨by simp, by simp, by simp, by simp, id⟩
  | cons p rest ih =>
    obtain ⟨next, r⟩ := p
    rw [meet] at h
    split at h
    · next fresh =>
      split at h
      · cases h
      · next ne =>
        split at h
        · cases h
        · next inner =>
          cases h
          exact (ih inner).cons_fresh fresh ne
    · next old => exact (ih h).cons_old old

/-! ## Levels -/

/-- The state of a search. The codes at the front of the queue are met along paths of `k` pairs,
those at the back along paths of one pair more, and fewer pairs do not lead to the latter. All codes
that `k` pairs lead to are met, and so are the neighbours of a code that was looked from. -/
structure Levels (t : RateTable) (source : String) (unmet : List String) (k : Nat)
    (front back : List (String × Float)) : Prop where
  level : ∀ p ∈ front, ∃ rates, Path t source p.1 rates ∧ rates.length = k ∧ p.2 = product rates
  ahead : ∀ p ∈ back,
    ∃ rates, Path t source p.1 rates ∧ rates.length = k + 1 ∧ p.2 = product rates
  least : ∀ p ∈ back, ∀ rates, Path t source p.1 rates → k < rates.length
  near : ∀ code rates, Path t source code rates → rates.length ≤ k → code ∉ unmet
  looked : ∀ code rates, Path t source code rates → code ∉ unmet →
    code ∈ (front ++ back).map (·.1) ∨ ∀ next r, t.direct? code next = some r → next ∉ unmet

namespace Levels

theorem start (t : RateTable) (source : String) :
    Levels t source (t.codes.filter (· ≠ source)) 0 [(source, 1)] [] := by
  refine ⟨?_, by simp, by simp, ?_, ?_⟩
  · intro p mem
    obtain rfl := List.mem_singleton.mp mem
    exact ⟨[], .start, rfl, rfl⟩
  · intro code rates path short
    cases path with
    | start => simp
    | step => simp at short
  · intro code rates path met
    refine .inl ?_
    rcases path.source_or_mem_codes with rfl | mem
    · simp
    · have eq : code = source := by simpa [mem] using met
      simp [eq]

theorem head (h : Levels t source unmet k ((code, rate) :: front) back) :
    ∃ rates, Path t source code rates ∧ rates.length = k ∧ rate = product rates :=
  h.level _ List.mem_cons_self

/-- When the front is used up, the back is the next level. -/
theorem nextLevel (h : Levels t source unmet k [] back) :
    Levels t source unmet (k + 1) back [] := by
  refine ⟨h.ahead, by simp, by simp, ?_, by simpa using h.looked⟩
  intro next rates path short
  cases path with
  | start => exact h.near source [] .start (Nat.zero_le k)
  | @step code _ rates rate path stored =>
    -- The path but for its last pair is short enough for its end to be met, and too short to be at
    -- the back.
    have short : rates.length ≤ k := by simpa using short
    rcases h.looked code rates path (h.near code rates path short) with mem | neighbours
    · obtain ⟨p, inBack, rfl⟩ := List.mem_map.mp mem
      exact absurd (h.least p inBack rates path) (Nat.not_lt.mpr short)
    · exact neighbours next rate stored

/-- A step that does not come to the target puts what it finds at the back. -/
theorem step (h : Levels t source unmet k ((code, rate) :: front) back) (distinct : t.Distinct)
    (meets : Meets target rate unmet unmet' (t.neighbours code) found) :
    Levels t source unmet' k front (back ++ found) := by
  obtain ⟨rates, path, length, value⟩ := h.head
  have nearer {c : String} {others : List Float} (path : Path t source c others)
      (short : others.length ≤ k) : c ∉ unmet' := fun mem =>
    h.near c others path short (meets.subset c mem)
  refine ⟨?_, ?_, ?_, fun c others => nearer, ?_⟩
  · intro p mem
    exact h.level p (List.mem_cons_of_mem _ mem)
  · intro p mem
    rcases List.mem_append.mp mem with mem | mem
    · exact h.ahead p mem
    · obtain ⟨_, r, near, eq⟩ := meets.reached p mem
      have stored := (mem_neighbours distinct).mp near
      refine ⟨rates ++ [r], path.step stored, by simp [length], ?_⟩
      rw [product_append_singleton, eq, value]
  · intro p mem others path
    rcases List.mem_append.mp mem with mem | mem
    · exact h.least p mem others path
    · have fresh := (meets.reached p mem).1
      exact Nat.lt_of_not_le fun short => h.near p.1 others path short fresh
  · intro c others path met
    -- What this step has met is found by it; what was met before is in the queue, or looked from,
    -- or is the code that this step looks from.
    by_cases fresh : c ∈ unmet
    · refine .inl ?_
      have mem := meets.met c fresh met
      simp only [List.map_append, List.mem_append]
      exact .inr (.inr mem)
    · rcases h.looked c others path fresh with mem | neighbours
      · simp only [List.cons_append, List.map_cons, List.mem_cons] at mem
        rcases mem with rfl | mem
        · refine .inr fun next r stored => ?_
          exact meets.closed next r ((mem_neighbours distinct).mpr stored)
        · refine .inl ?_
          rw [← List.append_assoc, List.map_append]
          exact List.mem_append_left _ mem
      · exact .inr fun next r stored mem => neighbours next r stored (meets.subset next mem)

/-- Coming to the target from the front is along a path that no other path is shorter than. -/
theorem isShortest (h : Levels t source unmet k ((code, rate) :: front) back)
    (distinct : t.Distinct) (result : meet target rate unmet (t.neighbours code) = .target x) :
    IsShortest t source target x := by
  obtain ⟨rates, path, length, value⟩ := h.head
  obtain ⟨fresh, r, near, eq⟩ := meet_target result
  have stored := (mem_neighbours distinct).mp near
  refine ⟨rates ++ [r], path.step stored, ?_, ?_⟩
  · rw [product_append_singleton, eq, value]
  · intro others path
    have farther : k < others.length :=
      Nat.lt_of_not_le fun short => h.near target others path short fresh
    rw [List.length_append, length]
    exact farther

/-- When the queue is used up, all that a path leads to is met. -/
theorem not_mem_unmet (h : Levels t source unmet k [] []) (path : Path t source code rates) :
    code ∉ unmet := by
  induction path with
  | start => exact h.near source [] .start (Nat.zero_le k)
  | step path stored ih =>
    rcases h.looked _ _ path ih with mem | neighbours
    · cases mem
    · exact neighbours _ _ stored

/-- The first code of the queue is at the front of some level. -/
theorem exists_front {p : String × Float} {queue : List (String × Float)}
    (h : Levels t source unmet k front back) (eq : p :: queue = front ++ back) :
    ∃ k front' back', Levels t source unmet k (p :: front') back' ∧ queue = front' ++ back' := by
  cases front with
  | cons q front =>
    cases eq
    exact ⟨k, front, back, h, rfl⟩
  | nil =>
    obtain rfl : p :: queue = back := eq
    exact ⟨k + 1, queue, [], h.nextLevel, (List.append_nil _).symm⟩

end Levels

/-! ## Whole searches -/

theorem isShortest_of_searchFrom {queue : List (String × Float)} (distinct : t.Distinct)
    (h : Levels t source unmet k front back) (eq : queue = front ++ back)
    (result : t.searchFrom target unmet queue = some x) : IsShortest t source target x := by
  fun_induction searchFrom t target unmet queue generalizing k front back with
  | case1 => cases result
  | case2 unmet code rate queue y inner =>
    obtain ⟨k, front, back, h, -⟩ := h.exists_front eq
    cases result
    exact h.isShortest distinct inner
  | case3 unmet code rate queue unmet' found inner ih =>
    obtain ⟨k, front, back, h, rfl⟩ := h.exists_front eq
    exact ih (h.step distinct (meets_of_meet inner)) (List.append_assoc _ _ _) result

theorem no_path_of_searchFrom {queue : List (String × Float)} (distinct : t.Distinct)
    (h : Levels t source unmet k front back) (eq : queue = front ++ back) (fresh : target ∈ unmet)
    (result : t.searchFrom target unmet queue = none) : ¬Path t source target rates := by
  fun_induction searchFrom t target unmet queue generalizing k front back with
  | case1 unmet =>
    obtain ⟨rfl, rfl⟩ := List.nil_eq_append_iff.mp eq
    exact fun path => h.not_mem_unmet path fresh
  | case2 => cases result
  | case3 unmet code rate queue unmet' found inner ih =>
    obtain ⟨k, front, back, h, rfl⟩ := h.exists_front eq
    have meets := meets_of_meet inner
    exact ih (h.step distinct meets) (List.append_assoc _ _ _) (meets.other fresh) result

theorem isShortest_of_search (distinct : t.Distinct) (result : t.search source target = some x) :
    IsShortest t source target x :=
  isShortest_of_searchFrom distinct (.start t source) rfl result

theorem search_eq_none_iff (distinct : t.Distinct) (different : source ≠ target) :
    t.search source target = none ↔ ¬∃ rates, Path t source target rates := by
  constructor
  · rintro result ⟨rates, path⟩
    have mem : target ∈ t.codes := by
      rcases path.source_or_mem_codes with rfl | mem
      · exact absurd rfl different
      · exact mem
    have fresh : target ∈ t.codes.filter (· ≠ source) := by simp [mem, different.symm]
    exact no_path_of_searchFrom distinct (.start t source) rfl fresh result path
  · intro noPath
    rw [Option.eq_none_iff_forall_ne_some]
    intro x result
    obtain ⟨rates, path, -⟩ := isShortest_of_search distinct result
    exact noPath ⟨rates, path⟩

/-- A stored pair is itself a path that no other path is shorter than. -/
theorem isShortest_of_direct? (stored : t.direct? source target = some rate)
    (different : source ≠ target) : IsShortest t source target rate := by
  refine ⟨[rate], .single stored, ?_, ?_⟩
  · exact (Decimal.one_mul_double rate).symm
  · exact fun others path => path.length_pos different

end RateTable

/-! ## Rates of a cache -/

/-- Between different codes a cache has no rate exactly if no path of stored pairs leads from the
one to the other. Otherwise the rate is the product along a path that no other path is shorter than,
and that of a stored pair is the rate stored. -/
theorem rate_along_fewest_pairs {c : RateCache} (reachable : c.Reachable) {a b : String}
    (different : Text.upper a ≠ Text.upper b) :
    (c.table.rate? a b = none ↔
        ¬∃ rates, RateTable.Path c.table (Text.upper a) (Text.upper b) rates) ∧
      (∀ x, c.table.rate? a b = some x →
        IsShortest c.table (Text.upper a) (Text.upper b) x) ∧
      ∀ rate, c.table.direct? (Text.upper a) (Text.upper b) = some rate →
        c.table.rate? a b = some rate := by
  have distinct := reachable.distinct
  have unfolded : c.table.rate? a b =
      (c.table.direct? (Text.upper a) (Text.upper b) <|>
        c.table.search (Text.upper a) (Text.upper b)) :=
    if_neg different
  rw [unfolded]
  -- A stored pair is not searched for, but it is what a search would look for.
  cases stored : c.table.direct? (Text.upper a) (Text.upper b) with
  | none =>
    refine ⟨search_eq_none_iff distinct different, fun x => isShortest_of_search distinct, ?_⟩
    exact fun rate eq => by cases eq
  | some rate =>
    have path := Path.single stored
    refine ⟨?_, ?_, ?_⟩
    · constructor
      · rintro ⟨⟩
      · exact fun noPath => absurd ⟨[rate], path⟩ noPath
    · intro x eq
      cases eq
      exact isShortest_of_direct? stored different
    · exact fun _ eq => eq

/-- Two euros a dollar and three yen a euro, with no pair of dollars and yen. -/
theorem rate_along_two_pairs :
    let t := RateTable.store (RateTable.store [] "USD" "EUR" 2) "EUR" "JPY" 3
    t.rate? "usd" "jpy" = some 6 ∧ IsShortest t (Text.upper "usd") (Text.upper "jpy") 6 := by
  intro t
  have usd : Text.upper "USD" = "USD" := by decide +kernel
  have eur : Text.upper "EUR" = "EUR" := by decide +kernel
  have jpy : Text.upper "JPY" = "JPY" := by decide +kernel
  have first : (RateCache.empty 60).setRate "USD" "EUR" 2 =
      .ok { lifetime := 60, table := RateTable.store [] "USD" "EUR" 2 } := by
    rw [RateCache.setRate, if_neg (by decide +kernel), usd, eur]
    rfl
  have second : RateCache.setRate { lifetime := 60, table := RateTable.store [] "USD" "EUR" 2 }
      "EUR" "JPY" 3 = .ok { lifetime := 60, table := t } := by
    rw [RateCache.setRate, if_neg (by decide +kernel), eur, jpy]
    rfl
  have rate : t.rate? "usd" "jpy" = some 6 := by decide +kernel
  have reachable := RateCache.Reachable.setRate (.setRate (.empty 60) first) second
  exact ⟨rate, (rate_along_fewest_pairs reachable (by decide +kernel)).2.1 6 rate⟩

end LineCalc
