import LineCalc.Entries
import Mathlib.Data.List.Nodup

/-!
# Entries

Setting a key changes the value of that key and of no other. Where no key stands twice, the entries
are exactly the pairs of the keys and the values found under them.
-/

namespace LineCalc

namespace Entries

variable {κ α : Type}

/-- No key stands twice. -/
def Distinct (es : Entries κ α) : Prop := (es.map (·.1)).Nodup

theorem Distinct.mem_iff_lookup [BEq κ] [LawfulBEq κ] {es : Entries κ α} (h : es.Distinct) {key : κ}
    {value : α} : (key, value) ∈ es ↔ es.lookup key = some value := by
  induction es with
  | nil => simp
  | cons e rest ih =>
    obtain ⟨k, v⟩ := e
    obtain ⟨fresh, h⟩ := List.nodup_cons.mp h
    rw [List.lookup_cons, List.mem_cons, Prod.mk.injEq]
    by_cases eq : key = k
    · subst eq
      have notLater : (key, value) ∉ rest := fun mem => fresh (List.mem_map.mpr ⟨_, mem, rfl⟩)
      simp [notLater, eq_comm]
    · have different : (key == k) = false := by simpa using eq
      simp [eq, different, ih h]

theorem mem_of_lookup [BEq κ] [LawfulBEq κ] {es : Entries κ α} {key : κ} {value : α}
    (found : es.lookup key = some value) : (key, value) ∈ es := by
  obtain ⟨before, after, rfl, -⟩ := List.lookup_eq_some_iff.mp found
  exact List.mem_append_right before List.mem_cons_self

/-- A search that finds a value under one key only is a look-up of the key. -/
theorem findSome?_eq_map_lookup [BEq κ] [LawfulBEq κ] [DecidableEq κ] {β : Type} {es : Entries κ α}
    {key : κ} {found? : κ × α → Option β} {f : α → β}
    (each : ∀ e ∈ es, found? e = if e.1 = key then some (f e.2) else none) :
    es.findSome? found? = (es.lookup key).map f := by
  rw [List.lookup_eq_findSome?]
  induction es with
  | nil => rfl
  | cons e rest ih =>
    obtain ⟨head, rest⟩ := List.forall_mem_cons.mp each
    rw [List.findSome?_cons, List.findSome?_cons, head, ih rest]
    by_cases same : e.1 = key
    · simp [same]
    · simp [same, beq_false_of_ne (Ne.symm same)]

theorem lookup_filter [BEq κ] [LawfulBEq κ] (es : Entries κ α) (key : κ) :
    (es.filter (·.1 == key)).lookup key = es.lookup key := by
  induction es with
  | nil => rfl
  | cons e rest ih =>
    obtain ⟨k, v⟩ := e
    by_cases same : k = key
    · simp [same]
    · simp [List.lookup_cons, beq_false_of_ne (Ne.symm same), same, ih]

theorem lookup_append [BEq κ] [LawfulBEq κ] (es es' : Entries κ α) (key : κ) :
    (es ++ es').lookup key = (es.lookup key).or (es'.lookup key) := by
  rw [List.lookup_eq_findSome?, List.findSome?_append, ← List.lookup_eq_findSome?,
    ← List.lookup_eq_findSome?]

theorem Distinct.reverse {es : Entries κ α} (h : es.Distinct) : Distinct es.reverse := by
  rw [Distinct, List.map_reverse]
  exact List.nodup_reverse.mpr h

theorem Distinct.lookup_reverse [BEq κ] [LawfulBEq κ] {es : Entries κ α} (h : es.Distinct)
    (key : κ) : es.reverse.lookup key = es.lookup key := by
  refine Option.ext fun value => ?_
  rw [← h.mem_iff_lookup, ← h.reverse.mem_iff_lookup, List.mem_reverse]

theorem Distinct.filter {es : Entries κ α} (h : es.Distinct) (p : κ × α → Bool) :
    Distinct (es.filter p) :=
  List.Nodup.sublist (List.filter_sublist.map _) h

theorem Distinct.lookup_filter [BEq κ] [LawfulBEq κ] {es : Entries κ α} (h : es.Distinct)
    (p : κ × α → Bool) (key : κ) :
    (es.filter p).lookup key = (es.lookup key).filter (fun value => p (key, value)) := by
  refine Option.ext fun value => ?_
  rw [← (h.filter p).mem_iff_lookup, List.mem_filter, h.mem_iff_lookup, Option.filter_eq_some_iff]

variable [DecidableEq κ]

/-- Without the entries of one key all other keys have the values that they had. -/
theorem lookup_remove [BEq κ] [LawfulBEq κ] (es : Entries κ α) (key other : κ) :
    (es.filter (·.1 != key)).lookup other = if other = key then none else es.lookup other := by
  induction es with
  | nil => exact (ite_self _).symm
  | cons e rest ih =>
    obtain ⟨k, v⟩ := e
    rw [List.filter_cons, List.lookup_cons]
    by_cases removed : k = key
    · rw [if_neg (by simp [removed]), ih]
      by_cases same : other = key
      · rw [if_pos same, if_pos same]
      · rw [if_neg same, if_neg same, removed, beq_false_of_ne same]
    · rw [if_pos (by simpa using removed), List.lookup_cons, ih]
      by_cases found : other = k
      · rw [found, beq_self_eq_true]
        exact (if_neg removed).symm
      · rw [beq_false_of_ne found]

theorem lookup_set_self [BEq κ] [LawfulBEq κ] (es : Entries κ α) (key : κ) (value : α) :
    (es.set key value).lookup key = some value := by
  induction es with
  | nil => simp [set]
  | cons e rest ih =>
    obtain ⟨k, v⟩ := e
    rw [set]
    split
    · simp
    · next ne => simpa [List.lookup_cons, beq_false_of_ne (Ne.symm ne)] using ih

theorem lookup_set_of_ne [BEq κ] [LawfulBEq κ] (es : Entries κ α) {key other : κ}
    (ne : other ≠ key) (value : α) : (es.set key value).lookup other = es.lookup other := by
  induction es with
  | nil => simp [set, List.lookup_cons, beq_false_of_ne ne]
  | cons e rest ih =>
    obtain ⟨k, v⟩ := e
    rw [set]
    split
    · next eq => simp [List.lookup_cons, eq, beq_false_of_ne ne]
    · rw [List.lookup_cons, List.lookup_cons, ih]

/-- A key that the first entries do not have is set behind them. -/
theorem set_append_of_new {es : Entries κ α} {key : κ} (new : key ∉ es.map (·.1))
    (es' : Entries κ α) (value : α) : (es ++ es').set key value = es ++ es'.set key value := by
  induction es with
  | nil => rfl
  | cons e rest ih =>
    obtain ⟨k, v⟩ := e
    obtain ⟨other, new⟩ := not_or.mp (List.mem_cons.not.mp new)
    rw [List.cons_append, set, if_neg (Ne.symm other), ih new, List.cons_append]

theorem set_of_new (es : Entries κ α) {key : κ} (new : key ∉ es.map (·.1)) (value : α) :
    es.set key value = es ++ [(key, value)] := by
  have behind := set_append_of_new new [] value
  rwa [List.append_nil] at behind

/-- Setting a known key leaves the keys as they are. -/
theorem keys_set_of_mem {es : Entries κ α} {key : κ} (known : key ∈ es.map (·.1)) (value : α) :
    (es.set key value).map (·.1) = es.map (·.1) := by
  induction es with
  | nil => cases known
  | cons e rest ih =>
    obtain ⟨k, v⟩ := e
    rw [set]
    split
    · next eq => rw [List.map_cons, List.map_cons, eq]
    · next ne =>
      have known : key ∈ rest.map (·.1) :=
        (List.mem_cons.mp known).resolve_left fun same => ne same.symm
      rw [List.map_cons, List.map_cons, ih known]

/-- Pairs with new keys that are different come behind the entries. -/
theorem merge_of_distinct {es pairs : Entries κ α} (h : Distinct (es ++ pairs)) :
    es.merge pairs = es ++ pairs := by
  induction pairs generalizing es with
  | nil => exact (List.append_nil es).symm
  | cons p rest ih =>
    obtain ⟨k, v⟩ := p
    have new : k ∉ es.map (·.1) := by
      rw [Distinct, List.map_append, List.map_cons] at h
      exact fun mem => List.disjoint_of_nodup_append h mem List.mem_cons_self
    have moved : es ++ (k, v) :: rest = (es ++ [(k, v)]) ++ rest := by simp
    calc es.merge ((k, v) :: rest) = (es.set k v).merge rest := rfl
      _ = (es ++ [(k, v)]).merge rest := by rw [set_of_new es new]
      _ = (es ++ [(k, v)]) ++ rest := ih (moved ▸ h)
      _ = es ++ (k, v) :: rest := moved.symm

theorem ofPairs_of_distinct {pairs : Entries κ α} (h : Distinct pairs) : ofPairs pairs = pairs :=
  show merge [] pairs = pairs from merge_of_distinct h

theorem mem_set {es : Entries κ α} {key : κ} {value : α} {e : κ × α} (h : e ∈ es.set key value) :
    e ∈ es ∨ e = (key, value) := by
  induction es with
  | nil => exact .inr (List.mem_singleton.mp h)
  | cons first rest ih =>
    obtain ⟨k, v⟩ := first
    rw [set] at h
    split at h
    · rcases List.mem_cons.mp h with eq | mem
      · exact .inr eq
      · exact .inl (List.mem_cons_of_mem _ mem)
    · rcases List.mem_cons.mp h with eq | mem
      · exact .inl (eq ▸ List.mem_cons_self)
      · exact (ih mem).imp_left (List.mem_cons_of_mem _)

theorem mem_keys_set {es : Entries κ α} {key k : κ} {value : α} :
    k ∈ (es.set key value).map (·.1) ↔ k = key ∨ k ∈ es.map (·.1) := by
  induction es with
  | nil => simp [set]
  | cons e rest ih =>
    obtain ⟨k', v⟩ := e
    rw [set]
    split
    · next eq =>
      subst eq
      simp
    · rw [List.map_cons, List.mem_cons, ih, List.map_cons, List.mem_cons, or_left_comm]

theorem Distinct.set {es : Entries κ α} (h : es.Distinct) (key : κ) (value : α) :
    (Entries.set key value es).Distinct := by
  induction es with
  | nil => simp [Distinct, Entries.set]
  | cons e rest ih =>
    obtain ⟨k, v⟩ := e
    obtain ⟨fresh, h⟩ := List.nodup_cons.mp h
    rw [Entries.set]
    split
    · next eq =>
      subst eq
      exact List.nodup_cons.mpr ⟨fresh, h⟩
    · next ne =>
      refine List.nodup_cons.mpr ⟨?_, ih h⟩
      rw [mem_keys_set, not_or]
      exact ⟨ne, fresh⟩

theorem Distinct.merge {es : Entries κ α} (h : es.Distinct) (pairs : List (κ × α)) :
    (Entries.merge es pairs).Distinct :=
  List.foldlRecOn (motive := Distinct) pairs _ h fun _ h p _ => h.set p.1 p.2

theorem ofPairs_append_singleton (pairs : List (κ × α)) (key : κ) (value : α) :
    ofPairs (pairs ++ [(key, value)]) = (ofPairs pairs).set key value := by
  rw [ofPairs, List.foldl_append]
  rfl

theorem distinct_ofPairs (pairs : List (κ × α)) : Distinct (ofPairs pairs) :=
  have none : Distinct ([] : Entries κ α) := List.nodup_nil
  none.merge pairs

/-- Of entries put over others the last one of a key counts. -/
theorem lookup_merge [BEq κ] [LawfulBEq κ] (es pairs : Entries κ α) (key : κ) :
    (es.merge pairs).lookup key = (pairs.reverse.lookup key).or (es.lookup key) := by
  induction pairs generalizing es with
  | nil => rfl
  | cons p rest ih =>
    obtain ⟨k, v⟩ := p
    calc (es.merge ((k, v) :: rest)).lookup key = ((es.set k v).merge rest).lookup key := rfl
      _ = (rest.reverse.lookup key).or ((es.set k v).lookup key) := ih _
      _ = (rest.reverse.lookup key).or ((List.lookup key [(k, v)]).or (es.lookup key)) := by
        by_cases same : key = k
        · rw [same, lookup_set_self, List.lookup_cons_self, Option.some_or]
        · rw [lookup_set_of_ne es same, List.lookup_cons, beq_false_of_ne same, List.lookup_nil,
            Option.none_or]
      _ = (((k, v) :: rest).reverse.lookup key).or (es.lookup key) := by
        rw [List.reverse_cons, lookup_append, Option.or_assoc]

theorem mem_merge {es pairs : Entries κ α} {e : κ × α} (h : e ∈ es.merge pairs) :
    e ∈ es ∨ e ∈ pairs := by
  induction pairs generalizing es with
  | nil => exact .inl h
  | cons p rest ih =>
    rcases ih h with mem | mem
    · exact (mem_set mem).imp_right fun eq => List.mem_cons.mpr (.inl eq)
    · exact .inr (List.mem_cons_of_mem _ mem)

theorem mem_ofPairs {pairs : List (κ × α)} {e : κ × α} (h : e ∈ ofPairs pairs) : e ∈ pairs :=
  (mem_merge (show e ∈ merge [] pairs from h)).resolve_left List.not_mem_nil

end Entries

end LineCalc
