import LineCalc.Proofs.Rates.Search

/-!
# The route that a rate is found along

Which way the search takes depends on the stored pairs and their order alone, not on the rates: the
same search can keep anything for the codes that it meets. Kept are the pairs on the way here, and
every other search of the same table gives what it makes of these pairs. The rate between two codes
is therefore the product of the stored rates along one route, and no other route is shorter.

Results:
1. `RateTable.searchWith_eq`: what any search keeps, from the route.
2. `RateTable.rate?_eq_along_route`: the rate between two codes, from the route.
3. `RateTable.fewest_of_route?`: no other way between the codes is shorter than the route.
-/

namespace LineCalc

namespace RateTable

/-! ## Searching with anything in the place of rates -/

variable {β γ : Type}

/-- The codes that a code has stored rates to. -/
def nextCodes (t : RateTable) (code : String) : List String := (t.neighbours code).map (·.1)

/-- The outcome of one step of a search. -/
inductive ReachedWith (β : Type)
  /-- The target, with what is kept for it. -/
  | target (x : β)
  /-- Codes met for the first time, with what is kept for them, and the codes still not met. -/
  | codes (unmet : List String) (found : List (String × β))

/-- Looks at the next codes, keeping `onward` of each that is met. -/
def meetWith (target : String) (onward : String → β) (unmet : List String) :
    List String → ReachedWith β
  | [] => .codes unmet []
  | next :: rest =>
    if next ∈ unmet then
      if next = target then .target (onward next)
      else match meetWith target onward (unmet.filter (· ≠ next)) rest with
        | .target x => .target x
        | .codes unmet found => .codes unmet ((next, onward next) :: found)
    else meetWith target onward unmet rest

theorem length_meetWith {target : String} {onward : String → β} {unmet unmet' : List String}
    {near : List String} {found : List (String × β)}
    (h : meetWith target onward unmet near = .codes unmet' found) :
    unmet'.length + found.length ≤ unmet.length := by
  induction near generalizing unmet unmet' found with
  | nil =>
    cases h
    simp
  | cons next rest ih =>
    rw [meetWith] at h
    split at h
    · next mem =>
      split at h
      · cases h
      · split at h
        · cases h
        · next inner =>
          cases h
          have := ih inner
          have : (unmet.filter (· ≠ next)).length < unmet.length :=
            List.length_filter_lt_length_iff_exists.2 ⟨next, mem, by simp⟩
          simp only [List.length_cons]
          omega
    · exact ih h

/-- Searches from the codes in `queue`; `extend x code next` is kept for `next` if it is met from
`code`, for which `x` is kept. -/
def searchFromWith (t : RateTable) (extend : β → String → String → β) (target : String)
    (unmet : List String) : List (String × β) → Option β
  | [] => none
  | (code, x) :: queue =>
    match _h : meetWith target (extend x code) unmet (t.nextCodes code) with
    | .target y => some y
    | .codes unmet found => searchFromWith t extend target unmet (queue ++ found)
termination_by queue => unmet.length + queue.length
decreasing_by
  have := length_meetWith _h
  simp only [List.length_append, List.length_cons]
  omega

/-- What a search keeps for the target, if it keeps `x` for the source. -/
def searchWith (t : RateTable) (extend : β → String → String → β) (source target : String)
    (x : β) : Option β :=
  t.searchFromWith extend target (t.codes.filter (· ≠ source)) [(source, x)]

/-! ## What is kept -/

/-- An outcome with something else kept. -/
def ReachedWith.map (f : β → γ) : ReachedWith β → ReachedWith γ
  | .target x => .target (f x)
  | .codes unmet found => .codes unmet (found.map fun p => (p.1, f p.2))

variable {t : RateTable} {source target code : String} {unmet near : List String}

theorem meetWith_map (f : β → γ) (onward : String → β) :
    meetWith target (fun next => f (onward next)) unmet near =
      (meetWith target onward unmet near).map f := by
  induction near generalizing unmet with
  | nil => rfl
  | cons next rest ih =>
    rw [meetWith, meetWith]
    split
    · split
      · rfl
      · rw [ih]
        cases meetWith target onward (unmet.filter (· ≠ next)) rest <;> rfl
    · exact ih

/-- Searches of which one keeps what the other makes of it go the same way. -/
theorem searchFromWith_map {extend : β → String → String → β} {extend' : γ → String → String → γ}
    {f : β → γ} (commutes : ∀ x code next, f (extend x code next) = extend' (f x) code next)
    (queue : List (String × β)) :
    t.searchFromWith extend' target unmet (queue.map fun p => (p.1, f p.2)) =
      (t.searchFromWith extend target unmet queue).map f := by
  have step (code : String) (x : β) (unmet : List String) :
      meetWith target (extend' (f x) code) unmet (t.nextCodes code) =
        (meetWith target (extend x code) unmet (t.nextCodes code)).map f := by
    rw [← meetWith_map]
    exact congrArg (meetWith target · unmet _) (funext fun next => (commutes x code next).symm)
  fun_induction searchFromWith t extend target unmet queue with
  | case1 => rw [List.map_nil, searchFromWith, Option.map_none]
  | case2 unmet code x queue y inner =>
    rw [List.map_cons, searchFromWith, step, inner]
    rfl
  | case3 unmet code x queue unmet' found inner ih =>
    rw [List.map_cons, searchFromWith, step, inner]
    rw [List.map_append] at ih
    exact ih

/-! ## Ways -/

/-- Stored pairs that lead from one code to another. -/
inductive Way (t : RateTable) (source : String) : String → List (String × String) → Prop
  | start : Way t source source []
  | step {code next : String} {way : List (String × String)} :
      Way t source code way → (t.direct? code next).isSome = true →
        Way t source next (way ++ [(code, next)])

/-- A way that no other way is shorter than. -/
structure Fewest (t : RateTable) (source target : String) (way : List (String × String)) :
    Prop where
  isWay : Way t source target way
  least : ∀ other, Way t source target other → way.length ≤ other.length

/-- What is kept for the end of a way, if `x` is kept for its source. -/
def along (extend : β → String → String → β) (x : β) (way : List (String × String)) : β :=
  way.foldl (fun x pair => extend x pair.1 pair.2) x

/-- The search that keeps the pairs on the way. -/
def searchRoute? (t : RateTable) (source target : String) : Option (List (String × String)) :=
  t.searchWith (fun way code next => way ++ [(code, next)]) source target []

/-- The route between two codes: none of any pairs for a code and itself, a stored pair by itself,
and else what the search finds. -/
def route? (t : RateTable) (source target : String) : Option (List (String × String)) :=
  if source = target then some []
  else if (t.direct? source target).isSome then some [(source, target)]
  else t.searchRoute? source target

/-- Every search keeps what it makes of the pairs on the route. -/
theorem searchWith_eq (t : RateTable) (extend : β → String → String → β) (source target : String)
    (x : β) :
    t.searchWith extend source target x = (t.searchRoute? source target).map (along extend x) := by
  have commutes (way : List (String × String)) (code next : String) :
      along extend x (way ++ [(code, next)]) = extend (along extend x way) code next := by
    rw [along, List.foldl_append]
    rfl
  exact searchFromWith_map commutes [(source, [])]

/-! ## Rates -/

/-- A rate along one stored pair more. -/
def extendRate (t : RateTable) (rate : Float) (code next : String) : Float :=
  rate * (t.direct? code next).getD 0

/-- The product of the stored rates along a way. -/
def rateAlong (t : RateTable) (way : List (String × String)) : Float := along t.extendRate 1 way

/-- An outcome of the search for a rate. -/
def ReachedWith.toReached : ReachedWith Float → Reached
  | .target rate => .target rate
  | .codes unmet found => .codes unmet found

theorem meet_eq_meetWith {rate : Float} {near : List (String × Float)}
    (stored : ∀ p ∈ near, t.direct? code p.1 = some p.2) :
    meet target rate unmet near =
      (meetWith target (t.extendRate rate code) unmet (near.map (·.1))).toReached := by
  induction near generalizing unmet with
  | nil => rfl
  | cons p rest ih =>
    obtain ⟨next, r⟩ := p
    obtain ⟨first, rest⟩ := List.forall_mem_cons.mp stored
    have value : t.extendRate rate code next = rate * r := by
      rw [extendRate, first]
      rfl
    rw [List.map_cons, meet, meetWith]
    split
    · rw [value]
      split
      · rfl
      · rw [ih rest]
        cases meetWith target (t.extendRate rate code) (unmet.filter (· ≠ next)) _ <;> rfl
    · exact ih rest

theorem meet_neighbours (distinct : t.Distinct) (rate : Float) :
    meet target rate unmet (t.neighbours code) =
      (meetWith target (t.extendRate rate code) unmet (t.nextCodes code)).toReached :=
  meet_eq_meetWith fun _ mem => (mem_neighbours distinct).mp mem

/-- The search for a rate is the one that keeps rates. -/
theorem searchFrom_eq_searchFromWith (distinct : t.Distinct) (queue : List (String × Float)) :
    t.searchFrom target unmet queue = t.searchFromWith t.extendRate target unmet queue := by
  fun_induction searchFromWith t t.extendRate target unmet queue with
  | case1 => rw [searchFrom]
  | case2 unmet code rate queue y inner =>
    rw [searchFrom, meet_neighbours distinct, inner]
    rfl
  | case3 unmet code rate queue unmet' found inner ih =>
    rw [searchFrom, meet_neighbours distinct, inner]
    exact ih

theorem search_eq_along_route (distinct : t.Distinct) (source target : String) :
    t.search source target = (t.searchRoute? source target).map t.rateAlong := by
  rw [search, searchFrom_eq_searchFromWith distinct]
  exact searchWith_eq t t.extendRate source target 1

/-- The rate between two codes is the product of the stored rates along the route. -/
theorem rate?_eq_along_route (distinct : t.Distinct) (a b : String) :
    t.rate? a b = (t.route? (Text.upper a) (Text.upper b)).map t.rateAlong := by
  rw [rate?, route?]
  split
  · rfl
  · cases stored : t.direct? (Text.upper a) (Text.upper b) with
    | none => exact search_eq_along_route distinct _ _
    | some rate =>
      have value : t.rateAlong [(Text.upper a, Text.upper b)] = 1 * rate := by
        rw [rateAlong, along, List.foldl_cons, List.foldl_nil, extendRate, stored]
        rfl
      simp only [Option.isSome_some, if_true, Option.map_some, value, Decimal.one_mul_double]
      rfl

/-! ## The shortest ways -/

variable {way other : List (String × String)} {a b c : String}

/-- A way is walked at the rates along it. -/
theorem Way.path (h : Way t source target way) :
    ∃ rates, Path t source target rates ∧ rates.length = way.length ∧
      t.rateAlong way = product rates := by
  induction h with
  | start => exact ⟨[], .start, rfl, rfl⟩
  | @step code next way _ stored ih =>
    obtain ⟨rates, path, length, value⟩ := ih
    obtain ⟨rate, stored⟩ := Option.isSome_iff_exists.mp stored
    refine ⟨rates ++ [rate], path.step stored, by simp [length], ?_⟩
    rw [rateAlong, along, List.foldl_append, product_append_singleton, ← value]
    simp only [List.foldl_cons, List.foldl_nil, extendRate, stored, Option.getD_some]
    rfl

theorem Way.single (stored : (t.direct? a b).isSome = true) : Way t a b [(a, b)] :=
  .step .start stored

theorem Way.append (isWay : Way t a b way) (next : Way t b c other) :
    Way t a c (way ++ other) := by
  induction next with
  | start => rwa [List.append_nil]
  | step _ stored ih =>
    rw [← List.append_assoc]
    exact ih.step stored

theorem meetWith_target {onward : String → β} {x : β}
    (h : meetWith target onward unmet near = .target x) :
    target ∈ unmet ∧ target ∈ near ∧ x = onward target := by
  induction near generalizing unmet with
  | nil => cases h
  | cons next rest ih =>
    rw [meetWith] at h
    split at h
    · next fresh =>
      split at h
      · next eq =>
        subst eq
        cases h
        exact ⟨fresh, List.mem_cons_self, rfl⟩
      · split at h
        · next inner =>
          cases h
          obtain ⟨mem, near, value⟩ := ih inner
          exact ⟨(List.mem_filter.mp mem).1, List.mem_cons_of_mem _ near, value⟩
        · cases h
    · obtain ⟨mem, near, value⟩ := ih h
      exact ⟨mem, List.mem_cons_of_mem _ near, value⟩

theorem mem_of_meetWith {onward : String → β} {unmet' : List String} {found : List (String × β)}
    (h : meetWith target onward unmet near = .codes unmet' found) :
    ∀ p ∈ found, p.1 ∈ near ∧ p.2 = onward p.1 := by
  induction near generalizing unmet unmet' found with
  | nil =>
    cases h
    exact List.forall_mem_nil _
  | cons next rest ih =>
    rw [meetWith] at h
    split at h
    · split at h
      · cases h
      · split at h
        · cases h
        · next inner =>
          cases h
          refine List.forall_mem_cons.mpr ⟨⟨List.mem_cons_self, rfl⟩, fun p mem => ?_⟩
          obtain ⟨near, value⟩ := ih inner p mem
          exact ⟨List.mem_cons_of_mem _ near, value⟩
    · intro p mem
      obtain ⟨near, value⟩ := ih h p mem
      exact ⟨List.mem_cons_of_mem _ near, value⟩

theorem isSome_of_mem_nextCodes (distinct : t.Distinct) {next : String}
    (mem : next ∈ t.nextCodes code) : (t.direct? code next).isSome = true := by
  obtain ⟨⟨_, rate⟩, near, rfl⟩ := List.mem_map.mp mem
  exact Option.isSome_of_eq_some ((mem_neighbours distinct).mp near)

/-- A code that was met, with the way to it. -/
abbrev Kept := String × List (String × String)

/-- A code that was met, with the rate along the way to it. -/
def rated (t : RateTable) (p : Kept) : String × Float := (p.1, t.rateAlong p.2)

/-- The state of a search that keeps ways: the rates along them are those of a search for rates,
and the ways are of as many pairs as these rates are of. -/
structure Tracks (t : RateTable) (source : String) (unmet : List String) (k : Nat)
    (front back : List Kept) : Prop where
  levels : Levels t source unmet k (front.map t.rated) (back.map t.rated)
  level : ∀ p ∈ front, Way t source p.1 p.2 ∧ p.2.length = k
  ahead : ∀ p ∈ back, Way t source p.1 p.2 ∧ p.2.length = k + 1

namespace Tracks

variable {unmet' : List String} {k : Nat} {front back found queue : List Kept} {p : Kept}

theorem start (t : RateTable) (source : String) :
    Tracks t source (t.codes.filter (· ≠ source)) 0 [(source, [])] [] := by
  refine ⟨Levels.start t source, fun p mem => ?_, List.forall_mem_nil _⟩
  obtain rfl := List.mem_singleton.mp mem
  exact ⟨.start, rfl⟩

/-- The first code of the queue is at the front of some level. -/
theorem exists_front (h : Tracks t source unmet k front back) (eq : p :: queue = front ++ back) :
    ∃ k front' back', Tracks t source unmet k (p :: front') back' ∧ queue = front' ++ back' := by
  cases front with
  | cons q front =>
    cases eq
    exact ⟨k, front, back, h, rfl⟩
  | nil =>
    obtain rfl : p :: queue = back := eq
    exact ⟨k + 1, queue, [], ⟨h.levels.nextLevel, h.ahead, List.forall_mem_nil _⟩,
      (List.append_nil _).symm⟩

/-- A step that keeps ways does what the step that keeps their rates does. -/
theorem meet_rated (distinct : t.Distinct) :
    meet target (t.rateAlong way) unmet (t.neighbours code) =
      ((meetWith target (fun next => way ++ [(code, next)]) unmet (t.nextCodes code)).map
        t.rateAlong).toReached := by
  have onward : (fun next => t.rateAlong (way ++ [(code, next)])) =
      t.extendRate (t.rateAlong way) code := by
    funext next
    rw [rateAlong, along, List.foldl_append]
    rfl
  rw [meet_neighbours distinct, ← onward, meetWith_map]

theorem step (h : Tracks t source unmet k ((code, way) :: front) back) (distinct : t.Distinct)
    (inner : meetWith target (fun next => way ++ [(code, next)]) unmet (t.nextCodes code) =
      .codes unmet' found) : Tracks t source unmet' k front (back ++ found) := by
  have rates : meet target (t.rateAlong way) unmet (t.neighbours code) = _ := meet_rated distinct
  rw [inner] at rates
  obtain ⟨toCode, length⟩ := h.level _ List.mem_cons_self
  refine ⟨?_, fun p mem => h.level p (List.mem_cons_of_mem _ mem), fun p mem => ?_⟩
  · rw [List.map_append]
    exact h.levels.step distinct (meets_of_meet rates)
  · rcases List.mem_append.mp mem with old | new
    · exact h.ahead p old
    · obtain ⟨near, value⟩ := mem_of_meetWith inner p new
      rw [value]
      exact ⟨toCode.step (isSome_of_mem_nextCodes distinct near), by simp [length]⟩

/-- The way to the target is one that no other way is shorter than. -/
theorem fewest (h : Tracks t source unmet k ((code, way) :: front) back) (distinct : t.Distinct)
    (inner : meetWith target (fun next => way ++ [(code, next)]) unmet (t.nextCodes code) =
      .target other) : Fewest t source target other := by
  obtain ⟨fresh, near, rfl⟩ := meetWith_target inner
  obtain ⟨toCode, length⟩ := h.level _ List.mem_cons_self
  refine ⟨toCode.step (isSome_of_mem_nextCodes distinct near), fun other isWay => ?_⟩
  obtain ⟨rates, path, same, -⟩ := isWay.path
  have farther : k < rates.length :=
    Nat.lt_of_not_le fun short => h.levels.near target rates path short fresh
  rw [List.length_append, length, ← same]
  exact farther

end Tracks

theorem fewest_of_searchFromWith {k : Nat} {front back queue : List Kept} (distinct : t.Distinct)
    (h : Tracks t source unmet k front back) (eq : queue = front ++ back)
    (result : t.searchFromWith (fun way code next => way ++ [(code, next)]) target unmet queue =
      some way) : Fewest t source target way := by
  fun_induction searchFromWith t (fun way code next => way ++ [(code, next)]) target unmet queue
    generalizing k front back with
  | case1 => cases result
  | case2 unmet code way queue y inner =>
    obtain ⟨k, front, back, h, -⟩ := h.exists_front eq
    cases result
    exact h.fewest distinct inner
  | case3 unmet code way queue unmet' found inner ih =>
    obtain ⟨k, front, back, h, rfl⟩ := h.exists_front eq
    exact ih (h.step distinct inner) (List.append_assoc _ _ _) result

/-- No way between two codes is shorter than the route. -/
theorem fewest_of_route? (distinct : t.Distinct) (found : t.route? source target = some way) :
    Fewest t source target way := by
  rw [route?] at found
  split at found
  · next same =>
    cases found
    subst same
    exact ⟨.start, fun _ _ => Nat.zero_le _⟩
  · next different =>
    split at found
    · next stored =>
      cases found
      refine ⟨.single stored, fun other isWay => ?_⟩
      obtain ⟨rates, path, same, -⟩ := isWay.path
      exact same ▸ path.length_pos different
    · exact fewest_of_searchFromWith distinct (.start t source) rfl found

/-- There is a rate between two codes exactly if a way leads from the one to the other. -/
theorem isSome_rate?_iff (distinct : t.Distinct) : (t.rate? a b).isSome = true ↔
    ∃ way, Way t (Text.upper a) (Text.upper b) way := by
  constructor
  · intro found
    rw [rate?_eq_along_route distinct, Option.isSome_map] at found
    obtain ⟨way, found⟩ := Option.isSome_iff_exists.mp found
    exact ⟨way, (fewest_of_route? distinct found).isWay⟩
  · rintro ⟨way, isWay⟩
    rw [rate?]
    split
    · rfl
    · next different =>
      obtain ⟨rates, path, -⟩ := isWay.path
      cases t.direct? (Text.upper a) (Text.upper b) with
      | some rate => rfl
      | none =>
        refine Option.isSome_iff_ne_none.mpr fun none => ?_
        exact (search_eq_none_iff distinct different).mp none ⟨rates, path⟩

/-! ## Ways back -/

/-- Opposite to a stored pair there is a stored pair. -/
def TwoWay (t : RateTable) : Prop :=
  ∀ a b, (t.direct? a b).isSome = true → (t.direct? b a).isSome = true

/-- A way backwards. -/
def backwards (way : List (String × String)) : List (String × String) :=
  (way.map Prod.swap).reverse

theorem length_backwards (way : List (String × String)) : (backwards way).length = way.length := by
  simp [backwards]

/-- Where stored pairs have their opposites, a way can be walked back. -/
theorem Way.backwards (twoWay : t.TwoWay) (isWay : Way t a b way) :
    Way t b a (backwards way) := by
  induction isWay with
  | start => exact .start
  | @step code next way _ stored ih =>
    have opposite := Way.single (twoWay code next stored)
    have first : RateTable.backwards (way ++ [(code, next)]) =
        [(next, code)] ++ RateTable.backwards way := by
      simp [RateTable.backwards]
    rw [first]
    exact opposite.append ih

/-- A way of the fewest pairs backwards is one of the fewest pairs back. -/
theorem Fewest.backwards (twoWay : t.TwoWay) (h : Fewest t a b way) :
    Fewest t b a (backwards way) := by
  refine ⟨h.isWay.backwards twoWay, fun other isWay => ?_⟩
  rw [length_backwards, ← length_backwards other]
  exact h.least _ (isWay.backwards twoWay)

end RateTable

end LineCalc
