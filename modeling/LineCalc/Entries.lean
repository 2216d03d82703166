/-!
# Entries by key

Lists of values under different keys, in the order in which the keys first came in. Setting a key
that is there keeps its place.
-/

namespace LineCalc

/-- Values by key, in the order in which the keys first came in. -/
abbrev Entries (κ α : Type) := List (κ × α)

namespace Entries

/-- Sets the value of a key: a known key keeps its place, a new one comes last. -/
def set [DecidableEq κ] (key : κ) (value : α) : Entries κ α → Entries κ α
  | [] => [(key, value)]
  | (k, v) :: rest => if k = key then (key, value) :: rest else (k, v) :: set key value rest

/-- The entries of pairs in which keys may be repeated: the last value of a key counts, at the place
where the key stood first. -/
def ofPairs [DecidableEq κ] (pairs : List (κ × α)) : Entries κ α :=
  pairs.foldl (fun es (k, v) => es.set k v) []

/-- The entries with others put over them. -/
def merge [DecidableEq κ] (old new : Entries κ α) : Entries κ α :=
  new.foldl (fun es (k, v) => es.set k v) old

end Entries

end LineCalc
