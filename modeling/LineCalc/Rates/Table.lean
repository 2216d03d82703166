import LineCalc.Entries
import LineCalc.Text.Case

/-!
# Exchange rates

Rates are kept per ordered pair of codes: `(a, b)` has the rate `r` if one `a` is worth `r` of `b`.
A pair keeps the place at which it first came in. Storing a rate also stores its reciprocal for the
opposite pair, unless the rate is zero.

A pair that is not stored is looked up along the stored ones, breadth first: the fewest steps win,
and of two ways with as many steps the one whose pairs came in first.
-/

namespace LineCalc

/-- Rates of ordered pairs, in the order in which the pairs came in. -/
abbrev RateTable := Entries (String × String) Float

namespace RateTable

/-- Stores that one `source` is worth `rate` of `target`. -/
def store (t : RateTable) (source target : String) (rate : Float) : RateTable :=
  let t := Entries.set (source, target) rate t
  if rate == 0 then t else Entries.set (target, source) (1 / rate) t

/-- The stored rate of a pair. -/
def direct? (t : RateTable) (source target : String) : Option Float := t.lookup (source, target)

/-- The codes that a code has stored rates to, with these rates. -/
def neighbours (t : RateTable) (code : String) : List (String × Float) :=
  t.filterMap fun ((a, b), rate) => if a = code then some (b, rate) else none

/-- All codes in the table. -/
def codes (t : RateTable) : List String :=
  (t.flatMap fun ((a, b), _) => [a, b]).eraseDups

/-- The outcome of one step of the search. -/
inductive Reached
  /-- The target, with the rate to it. -/
  | target (rate : Float)
  /-- Codes met for the first time, with the rates to them, and the codes still not met. -/
  | codes (unmet : List String) (found : List (String × Float))

/-- Looks at the neighbours of a code that `rate` leads to. -/
def meet (target : String) (rate : Float) (unmet : List String) : List (String × Float) → Reached
  | [] => .codes unmet []
  | (next, r) :: rest =>
    if next ∈ unmet then
      if next = target then .target (rate * r)
      else match meet target rate (unmet.filter (· ≠ next)) rest with
        | .target x => .target x
        | .codes unmet found => .codes unmet ((next, rate * r) :: found)
    else meet target rate unmet rest

/-- Meeting a code takes it from the codes not met. -/
theorem length_meet {target : String} {rate : Float} {unmet unmet' : List String}
    {near found : List (String × Float)} (h : meet target rate unmet near = .codes unmet' found) :
    unmet'.length + found.length ≤ unmet.length := by
  induction near generalizing unmet unmet' found with
  | nil =>
    simp only [meet, Reached.codes.injEq] at h
    simp [← h.1, ← h.2]
  | cons p rest ih =>
    obtain ⟨next, r⟩ := p
    simp only [meet] at h
    split at h
    · rename_i mem
      split at h
      · cases h
      · split at h
        · cases h
        · rename_i inner
          simp only [Reached.codes.injEq] at h
          have := ih inner
          have : (unmet.filter (· ≠ next)).length < unmet.length :=
            List.length_filter_lt_length_iff_exists.2 ⟨next, mem, by simp⟩
          simp only [← h.1, ← h.2, List.length_cons]
          omega
    · exact ih h

/-- Searches from the codes in `queue`, which are met but not yet looked from. -/
def searchFrom (t : RateTable) (target : String) (unmet : List String) :
    List (String × Float) → Option Float
  | [] => none
  | (code, rate) :: queue =>
    match _h : meet target rate unmet (t.neighbours code) with
    | .target x => some x
    | .codes unmet found => searchFrom t target unmet (queue ++ found)
termination_by queue => unmet.length + queue.length
decreasing_by
  have := length_meet _h
  simp only [List.length_append, List.length_cons]
  omega

/-- The rate along the fewest stored pairs. -/
def search (t : RateTable) (source target : String) : Option Float :=
  t.searchFrom target (t.codes.filter (· ≠ source)) [(source, 1)]

/-- How much of `target` one `source` is worth; a code is always worth one of itself. -/
def rate? (t : RateTable) (source target : String) : Option Float :=
  let source := Text.upper source
  let target := Text.upper target
  if source = target then some 1 else t.direct? source target <|> t.search source target

/-- An amount of `source` in `target`. -/
def convert? (t : RateTable) (amount : Float) (source target : String) : Option Float :=
  (t.rate? source target).map (amount * ·)

end RateTable

end LineCalc
