import Mathlib.Data.List.Perm.Basic
import LineCalc.Proofs.Catalog.MeasureUnit
import LineCalc.Proofs.Entries
import LineCalc.Proofs.Session.KnownCodes
import LineCalc.Session.Totals

/-!
# What the totals by kind count

Each amount that counts is in one group: money, the amounts of a code without a way to dollars, the
units of a quantity, or plain numbers; percentages are in none. The totals are one for each group,
and none is lost on the way: units of one quantity are always converted into each other, and
whatever the money is shown in, there is something with an exchange rate under its code.

Results:
1. `Sums.add`: what one more amount does to the sums of the groups.
2. `perm_members`: the groups have each amount exactly once.
3. `grouped_totals_count_once`: the totals of a session.
-/

namespace LineCalc

/-! ## Groups -/

/-- What an amount is added up with. -/
inductive TotalGroup
  | money
  /-- Amounts of a code that no rate leads to dollars from. -/
  | stranded (code : String)
  | units (q : Quantity)
  | plain
deriving DecidableEq

namespace TotalGroup

/-- The code that all amounts of a group have that are not added up in dollars. -/
def code? : TotalGroup → Option String
  | .stranded code => some code
  | .money | .units _ | .plain => none

/-- The quantity that the amounts of a group measure. -/
def quantity? : TotalGroup → Option Quantity
  | .units q => some q
  | .money | .stranded _ | .plain => none

theorem code?_eq_some {g : TotalGroup} {code : String} :
    g.code? = some code ↔ g = .stranded code := by
  cases g <;> simp [code?]

theorem quantity?_eq_some {g : TotalGroup} {q : Quantity} :
    g.quantity? = some q ↔ g = .units q := by
  cases g <;> simp [quantity?]

end TotalGroup

/-- The group of an amount. -/
def Value.group? (rates : RateTable) : Value → Option TotalGroup
  | .empty | .error _ | .amount _ .percent => none
  | .amount _ .plain => some .plain
  | .amount _ (.unit u) => some (.units u.quantity)
  | .amount _ d => some (if (rates.rate? d.code baseCode).isSome then .money else .stranded d.code)

/-- The amounts of a group, in order. -/
def members (rates : RateTable) (g : TotalGroup) (vs : List Value) : List Value :=
  vs.filter fun v => v.group? rates = some g

/-- What the groups of amounts are told apart by, in the order in which it first occurs. -/
def groupKeys {κ : Type} [DecidableEq κ] (rates : RateTable) (key? : TotalGroup → Option κ)
    (vs : List Value) : List κ :=
  (vs.filterMap fun v => (v.group? rates).bind key?).eraseDups

/-- All groups of amounts in the order of their totals. -/
def groups (rates : RateTable) (vs : List Value) : List TotalGroup :=
  .money :: ((groupKeys rates TotalGroup.code? vs).map .stranded ++
    (groupKeys rates TotalGroup.quantity? vs).map .units ++ [.plain])

/-! ## Totals -/

/-- The amounts added up in order. -/
def sumFrom (start : Float) (vs : List Value) : Float :=
  vs.foldl (fun sum v => sum + v.magnitude) start

/-- What the amounts are in dollars, added up in order. -/
def dollarSum (rates : RateTable) (vs : List Value) : Float :=
  (vs.filterMap fun v => rates.convert? v.magnitude v.code baseCode).foldl (· + ·) 0

/-- The code of the last currency, or else of the first amount. -/
def moneyCode? (vs : List Value) : Option String :=
  (vs.reverse.find? (·.kind == .currency) <|> vs.head?).map (·.code)

/-- The total of money: none without money, and otherwise one, in the code of the last currency or
else of the first metal or token, or in dollars if no rate leads from dollars to that code. -/
inductive MoneyTotal (rates : RateTable) (vs : List Value) : List Value → Prop
  | none : vs = [] → MoneyTotal rates vs []
  | converted {code : String} {n : Float} {d : Denomination} : moneyCode? vs = some code →
      rates.convert? (dollarSum rates vs) baseCode code = some n → d.code = code →
      MoneyTotal rates vs [.amount n d]
  | dollars {code : String} {d : Denomination} : moneyCode? vs = some code →
      rates.convert? (dollarSum rates vs) baseCode code = .none → d.code = baseCode →
      MoneyTotal rates vs [.amount (dollarSum rates vs) d]

/-- The total of amounts of a code: the first of them, with the sum. -/
inductive StrandedTotal (code : String) : List Value → Value → Prop
  | sum {n : Float} {d : Denomination} {rest : List Value} : d.code = code →
      StrandedTotal code (.amount n d :: rest) (.amount (sumFrom n rest) d)

/-- The running total of units: it is converted into the unit of each amount that is added. -/
inductive UnitTotal : List Value → Value → Prop
  | first (n : Float) (u : MeasureUnit) : UnitTotal [.amount n (.unit u)] (.amount n (.unit u))
  | more {vs : List Value} {m n moved : Float} {w u : MeasureUnit} :
      UnitTotal vs (.amount m (.unit w)) → w.convert m u = some moved →
      UnitTotal (vs ++ [.amount n (.unit u)]) (.amount (moved + n) (.unit u))

/-- The total of plain numbers, if it is not zero. -/
def plainTotal (vs : List Value) : List Value :=
  if sumFrom 0 vs != 0 then [.number (sumFrom 0 vs)] else []

/-- There is one entry for each key, in the order of the keys, and it is the total of its group. -/
structure Tallies {κ : Type} [DecidableEq κ] (rates : RateTable) (key? : TotalGroup → Option κ)
    (group : κ → TotalGroup) (Total : κ → List Value → Value → Prop) (vs : List Value)
    (es : Entries κ Value) : Prop where
  keys : es.map (·.1) = groupKeys rates key? vs
  totals : ∀ e ∈ es, Total e.1 (members rates (group e.1) vs) e.2

/-- What a grouping has of the amounts so far. -/
structure Sums (rates : RateTable) (vs : List Value) (g : Grouping) : Prop where
  dollars : g.dollars = dollarSum rates (members rates .money vs)
  moneyCode : g.moneyCode = moneyCode? (members rates .money vs)
  stranded : Tallies rates TotalGroup.code? .stranded StrandedTotal vs g.stranded
  units : Tallies rates TotalGroup.quantity? .units (fun _ => UnitTotal) vs g.units
  plain : g.plain = sumFrom 0 (members rates .plain vs)

/-! ## One more amount -/

section

variable {κ : Type} [DecidableEq κ] {rates : RateTable} {vs : List Value} {v : Value}
  {g : TotalGroup} {key? : TotalGroup → Option κ} {group : κ → TotalGroup}
  {Total : κ → List Value → Value → Prop} {es : Entries κ Value} {k : κ}

theorem members_append_of_mem (own : v.group? rates = some g) :
    members rates g (vs ++ [v]) = members rates g vs ++ [v] := by
  simp [members, own]

theorem members_append_of_not_mem (other : v.group? rates ≠ some g) :
    members rates g (vs ++ [v]) = members rates g vs := by
  simp [members, other]

theorem group?_of_mem_members (mem : v ∈ members rates g vs) : v.group? rates = some g := by
  simpa using (List.mem_filter.mp mem).2

theorem mem_groupKeys (inverse : ∀ g k, key? g = some k ↔ g = group k) :
    k ∈ groupKeys rates key? vs ↔ ∃ v ∈ vs, v.group? rates = some (group k) := by
  rw [groupKeys, List.mem_eraseDups, List.mem_filterMap]
  simp only [Option.bind_eq_some_iff, inverse, exists_eq_right]

theorem nodup_eraseDups (ks : List κ) : ks.eraseDups.Nodup := by
  cases ks with
  | nil => exact List.nodup_nil
  | cons k rest =>
    rw [List.eraseDups_cons, List.nodup_cons, List.mem_eraseDups]
    exact ⟨by simp, nodup_eraseDups _⟩
termination_by ks.length
decreasing_by exact Nat.lt_succ_of_le (List.length_filter_le _ _)

theorem eraseDups_concat (ks : List κ) (k : κ) : (ks ++ [k]).eraseDups =
    if k ∈ ks.eraseDups then ks.eraseDups else ks.eraseDups ++ [k] := by
  rw [List.eraseDups_append]
  simp only [List.mem_eraseDups]
  split
  · next known => simp [List.removeAll, known]
  · next new => simp [List.removeAll, new, List.eraseDups_cons]

theorem nodup_groupKeys (rates : RateTable) (key? : TotalGroup → Option κ) (vs : List Value) :
    (groupKeys rates key? vs).Nodup := nodup_eraseDups _

theorem groupKeys_append_of_none (other : (v.group? rates).bind key? = none) :
    groupKeys rates key? (vs ++ [v]) = groupKeys rates key? vs := by
  simp [groupKeys, other]

theorem groupKeys_append_of_some (own : (v.group? rates).bind key? = some k) :
    groupKeys rates key? (vs ++ [v]) = if k ∈ groupKeys rates key? vs then groupKeys rates key? vs
      else groupKeys rates key? vs ++ [k] := by
  have last : [v].filterMap (fun v => (v.group? rates).bind key?) = [k] := by simp [own]
  rw [groupKeys, List.filterMap_append, last, eraseDups_concat]
  rfl

theorem Tallies.skip (h : Tallies rates key? group Total vs es)
    (inverse : ∀ g k, key? g = some k ↔ g = group k)
    (other : (v.group? rates).bind key? = none) :
    Tallies rates key? group Total (vs ++ [v]) es where
  keys := h.keys.trans (groupKeys_append_of_none other).symm
  totals e mem := by
    rw [members_append_of_not_mem]
    · exact h.totals e mem
    · intro own
      rw [own, Option.bind_some, (inverse _ e.1).mpr rfl] at other
      cases other

theorem Tallies.distinct (h : Tallies rates key? group Total vs es) : es.Distinct := by
  rw [Entries.Distinct, h.keys]
  exact nodup_groupKeys rates key? vs

theorem Tallies.add {value : Value} (h : Tallies rates key? group Total vs es)
    (inverse : ∀ g k, key? g = some k ↔ g = group k) (own : v.group? rates = some (group k))
    (first : es.lookup k = none → Total k [v] value)
    (more : ∀ old, es.lookup k = some old → Total k (members rates (group k) vs) old →
      Total k (members rates (group k) vs ++ [v]) value) :
    Tallies rates key? group Total (vs ++ [v]) (es.set k value) := by
  have key : (v.group? rates).bind key? = some k := by
    rw [own, Option.bind_some, (inverse _ k).mpr rfl]
  have known : k ∈ es.map (·.1) ↔ k ∈ groupKeys rates key? vs := by rw [h.keys]
  have distinct := h.distinct
  have total : Total k (members rates (group k) vs ++ [v]) value := by
    cases found : es.lookup k with
    | none =>
      have new : k ∉ groupKeys rates key? vs := fun mem => by
        obtain ⟨e, mem', rfl⟩ := List.mem_map.mp (known.mpr mem)
        rw [distinct.mem_iff_lookup.mp mem'] at found
        cases found
      have none : members rates (group k) vs = [] := by
        refine List.eq_nil_iff_forall_not_mem.mpr fun w mem => new ?_
        exact (mem_groupKeys inverse).mpr ⟨w, (List.mem_filter.mp mem).1, group?_of_mem_members mem⟩
      rw [none]
      exact first found
    | some old => exact more old found (h.totals _ (Entries.mem_of_lookup found))
  refine ⟨?_, fun e mem => ?_⟩
  · rw [groupKeys_append_of_some key]
    split
    · next mem => rw [Entries.keys_set_of_mem (known.mpr mem), h.keys]
    · next new => rw [Entries.set_of_new es (mt known.mp new), List.map_append, h.keys]; rfl
  · have value' := (distinct.set k value).mem_iff_lookup.mp mem
    by_cases same : e.1 = k
    · rw [same, Entries.lookup_set_self] at value'
      rw [same, ← Option.some.inj value', members_append_of_mem own]
      exact total
    · rw [Entries.lookup_set_of_ne es same] at value'
      rw [members_append_of_not_mem]
      · exact h.totals e (Entries.mem_of_lookup value')
      · intro other
        have eq := (inverse (group k) e.1).mpr (Option.some.inj (own.symm.trans other))
        rw [(inverse _ k).mpr rfl] at eq
        exact same (Option.some.inj eq).symm

end

/-! ## Units -/

theorem UnitTotal.last {vs : List Value} {v : Value} (h : UnitTotal vs v) :
    ∃ n m u, vs.getLast? = some (.amount n (.unit u)) ∧ v = .amount m (.unit u) := by
  cases h with
  | first n u => exact ⟨n, n, u, rfl, rfl⟩
  | @more vs m n moved w u total found => exact ⟨n, moved + n, u, by simp, rfl⟩

/-! ## Money -/

section

variable {rates : RateTable} {vs : List Value} {v : Value} {n : Float} {d : Denomination}

theorem group?_of_rated (rated : d.isRated = true) (rates : RateTable) (n : Float) :
    (Value.amount n d).group? rates =
    some (if (rates.rate? d.code baseCode).isSome then .money else .stranded d.code) := by
  cases d with
  | plain | percent | unit => cases rated
  | currency | metal | crypto => rfl

theorem isRated_of_money (h : v.group? rates = some .money) : v.isRated = true := by
  cases v with
  | empty | error => cases h
  | amount n d =>
    cases d with
    | plain | percent | unit => cases h
    | currency | metal | crypto => rfl

theorem dollarSum_append {x : Float} (vs : List Value)
    (dollars : rates.convert? n d.code baseCode = some x) :
    dollarSum rates (vs ++ [.amount n d]) = dollarSum rates vs + x := by
  have last : [Value.amount n d].filterMap
      (fun v => rates.convert? v.magnitude v.code baseCode) = [x] :=
    List.filterMap_cons_some dollars
  rw [dollarSum, List.filterMap_append, last, List.foldl_append]
  rfl

theorem moneyCode?_append (vs : List Value) (v : Value) : moneyCode? (vs ++ [v]) =
    if v.kind == .currency || (moneyCode? vs).isNone then some v.code else moneyCode? vs := by
  rw [moneyCode?, List.reverse_append, List.reverse_singleton, List.singleton_append,
    List.find?_cons]
  cases currency : v.kind == .currency with
  | true => rfl
  | false =>
    rw [Bool.false_or, moneyCode?]
    cases vs with
    | nil => rfl
    | cons first rest => cases (first :: rest).reverse.find? (·.kind == .currency) <;> rfl

theorem moneyCode?_eq_none : moneyCode? vs = none ↔ vs = [] := by
  rw [moneyCode?]
  cases vs with
  | nil => simp
  | cons first rest => cases (first :: rest).reverse.find? (·.kind == .currency) <;> simp

theorem sumFrom_append (start : Float) (vs : List Value) (v : Value) :
    sumFrom start (vs ++ [v]) = sumFrom start vs + v.magnitude := by
  rw [sumFrom, List.foldl_append]
  rfl

/-! ## The loop -/

theorem addRated_of_way {x : Float} (g : Grouping)
    (dollars : rates.convert? n d.code baseCode = some x) :
    g.addRated rates (.amount n d) = { g with
      dollars := g.dollars + x
      moneyCode :=
        if d.kind == .currency || g.moneyCode.isNone then some d.code else g.moneyCode } := by
  have dollars : rates.convert? (Value.amount n d).magnitude (Value.amount n d).code baseCode =
      some x := dollars
  rw [Grouping.addRated, dollars]
  rfl

theorem addRated_of_no_way (g : Grouping) (stranded : rates.convert? n d.code baseCode = none) :
    ∃ sum, g.addRated rates (.amount n d) = { g with stranded := g.stranded.set d.code sum } ∧
      (g.stranded.lookup d.code = none → sum = .amount n d) ∧
      ∀ old, g.stranded.lookup d.code = some old → sum = old.withAmount (old.magnitude + n) := by
  have stranded : rates.convert? (Value.amount n d).magnitude (Value.amount n d).code baseCode =
      none := stranded
  rw [Grouping.addRated, stranded]
  refine ⟨_, rfl, fun new => ?_, fun old found => ?_⟩
  · have new : g.stranded.lookup (Value.amount n d).code = none := new
    rw [new]
  · have found : g.stranded.lookup (Value.amount n d).code = some old := found
    rw [found]
    rfl

/-- An amount of one group leaves the sums of the others as they are. -/
theorem Sums.others {g : Grouping} (h : Sums rates vs g) (v : Value) :
    (v.group? rates ≠ some .money → g.dollars = dollarSum rates (members rates .money (vs ++ [v])) ∧
      g.moneyCode = moneyCode? (members rates .money (vs ++ [v]))) ∧
    ((v.group? rates).bind TotalGroup.code? = none →
      Tallies rates TotalGroup.code? .stranded StrandedTotal (vs ++ [v]) g.stranded) ∧
    ((v.group? rates).bind TotalGroup.quantity? = none →
      Tallies rates TotalGroup.quantity? .units (fun _ => UnitTotal) (vs ++ [v]) g.units) ∧
    (v.group? rates ≠ some .plain → g.plain = sumFrom 0 (members rates .plain (vs ++ [v]))) := by
  refine ⟨fun other => ?_, h.stranded.skip fun _ _ => TotalGroup.code?_eq_some,
    h.units.skip fun _ _ => TotalGroup.quantity?_eq_some, fun other => ?_⟩
  · rw [members_append_of_not_mem other]
    exact ⟨h.dollars, h.moneyCode⟩
  · rw [members_append_of_not_mem other]
    exact h.plain

theorem Sums.addMoney {g : Grouping} (h : Sums rates vs g) {x : Float}
    (group : (Value.amount n d).group? rates = some .money)
    (dollars : rates.convert? n d.code baseCode = some x) :
    Sums rates (vs ++ [.amount n d]) (g.addRated rates (.amount n d)) := by
  obtain ⟨-, stranded, units, plain⟩ := h.others (.amount n d)
  rw [group] at stranded units plain
  rw [addRated_of_way g dollars]
  refine ⟨?_, ?_, stranded rfl, units rfl, plain (by simp)⟩
  · rw [members_append_of_mem group, dollarSum_append _ dollars, h.dollars]
  · rw [members_append_of_mem group, moneyCode?_append, h.moneyCode]
    rfl

theorem Sums.addStranded {g : Grouping} (h : Sums rates vs g)
    (group : (Value.amount n d).group? rates = some (.stranded d.code))
    (noDollars : rates.convert? n d.code baseCode = none) :
    Sums rates (vs ++ [.amount n d]) (g.addRated rates (.amount n d)) := by
  obtain ⟨money, -, units, plain⟩ := h.others (.amount n d)
  rw [group] at money units plain
  obtain ⟨dollars, moneyCode⟩ := money (by simp)
  obtain ⟨sum, added, first, more⟩ := addRated_of_no_way g noDollars
  rw [added]
  refine ⟨dollars, moneyCode, ?_, units rfl, plain (by simp)⟩
  refine h.stranded.add (fun _ _ => TotalGroup.code?_eq_some) group (fun new => ?_)
    fun old found total => ?_
  · rw [first new]
    exact .sum rfl
  · rw [more old found]
    generalize members rates (.stranded d.code) vs = own at total ⊢
    cases total with
    | @sum m d' rest code =>
      have total : StrandedTotal d.code (.amount m d' :: (rest ++ [.amount n d])) _ := .sum code
      rwa [sumFrom_append] at total

theorem Sums.addUnit {g : Grouping} (h : Sums rates vs g) (n : Float) (u : MeasureUnit) :
    Sums rates (vs ++ [.amount n (.unit u)]) (g.addUnit n u) := by
  have group : (Value.amount n (.unit u)).group? rates = some (.units u.quantity) := rfl
  obtain ⟨money, stranded, -, plain⟩ := h.others (.amount n (.unit u))
  rw [group] at money stranded plain
  obtain ⟨dollars, moneyCode⟩ := money (by simp)
  have inverse (g : TotalGroup) (q : Quantity) : g.quantity? = some q ↔ g = .units q :=
    TotalGroup.quantity?_eq_some
  rw [Grouping.addUnit]
  cases found : g.units.lookup u.quantity with
  | none =>
    refine ⟨dollars, moneyCode, stranded rfl, ?_, plain (by simp)⟩
    refine h.units.add inverse group (fun _ => .first n u) fun old found' => ?_
    rw [found] at found'
    cases found'
  | some old =>
    have total := h.units.totals _ (Entries.mem_of_lookup found)
    -- The total so far is in the unit of an amount of this quantity.
    obtain ⟨n', m, w, last, rfl⟩ := total.last
    have quantity : w.quantity = u.quantity := by
      simpa [Value.group?] using group?_of_mem_members (List.mem_of_getLast? last)
    obtain ⟨moved, converted⟩ := MeasureUnit.exists_convert quantity m
    simp only [converted]
    refine ⟨dollars, moneyCode, stranded rfl, ?_, plain (by simp)⟩
    refine h.units.add inverse group (fun new => ?_) fun old found' total => ?_
    · rw [found] at new
      cases new
    · rw [found] at found'
      obtain rfl := Option.some.inj found'
      exact total.more converted

theorem Sums.add {g : Grouping} (h : Sums rates vs g) (v : Value) :
    Sums rates (vs ++ [v]) (g.add rates v) := by
  obtain ⟨money, stranded, units, plain⟩ := h.others v
  have skipped (none : v.group? rates = none) : Sums rates (vs ++ [v]) g := by
    rw [none] at money stranded units plain
    exact ⟨(money (by simp)).1, (money (by simp)).2, stranded rfl, units rfl, plain (by simp)⟩
  have rated (n : Float) {d : Denomination} (rated : d.isRated = true) :
      Sums rates (vs ++ [.amount n d]) (g.addRated rates (.amount n d)) := by
    have group := group?_of_rated rated rates n
    have dollars : rates.convert? n d.code baseCode =
        (rates.rate? d.code baseCode).map (n * ·) := rfl
    cases way : rates.rate? d.code baseCode with
    | none => exact h.addStranded (by simpa [way] using group) (by rw [dollars, way]; rfl)
    | some rate => exact h.addMoney (by simpa [way] using group) (by rw [dollars, way]; rfl)
  cases v with
  | empty | error => exact skipped rfl
  | amount n d =>
    cases d with
    | percent => exact skipped rfl
    | unit u =>
      unfold Grouping.add
      rw [if_neg (by simp [Value.isRated, Value.denomination?, Denomination.isRated])]
      exact h.addUnit n u
    | currency | metal | crypto =>
      unfold Grouping.add
      rw [if_pos (by simp [Value.isRated, Value.denomination?, Denomination.isRated])]
      exact rated n rfl
    | plain =>
      have group : (Value.amount n .plain).group? rates = some .plain := rfl
      rw [group] at money stranded units
      obtain ⟨dollars, moneyCode⟩ := money (by simp)
      refine ⟨dollars, moneyCode, stranded rfl, units rfl, ?_⟩
      rw [members_append_of_mem group, sumFrom_append, ← h.plain]
      rfl

theorem sums_foldl (rates : RateTable) (vs : List Value) :
    Sums rates vs (vs.foldl (Grouping.add · rates) {}) := by
  induction vs using List.reverseRecOn with
  | nil => exact ⟨rfl, rfl, ⟨rfl, List.forall_mem_nil _⟩, ⟨rfl, List.forall_mem_nil _⟩, rfl⟩
  | append_singleton vs v ih =>
    rw [List.foldl_append]
    exact ih.add v

/-! ## Every amount once -/

/-- Sorted by a key, the values whose key is among some different ones are there once. -/
theorem perm_flatMap_filter {α γ : Type} [DecidableEq γ] (key? : α → Option γ) {ks : List γ}
    (distinct : ks.Nodup) (xs : List α) :
    (ks.flatMap fun k => xs.filter fun x => key? x = some k).Perm
      (xs.filter fun x => (key? x).any ks.contains) := by
  induction ks with
  | nil =>
    have none : (xs.filter fun x => (key? x).any [].contains) = [] :=
      List.filter_eq_nil_iff.mpr fun x _ => by cases key? x <;> simp
    rw [none]
    exact .refl _
  | cons k rest ih =>
    obtain ⟨fresh, distinct⟩ := List.nodup_cons.mp distinct
    have first : (xs.filter fun x => (key? x).any (k :: rest).contains).filter
        (fun x => key? x = some k) = xs.filter fun x => key? x = some k := by
      rw [List.filter_filter]
      refine List.filter_congr fun x _ => ?_
      by_cases same : key? x = some k <;> simp [same]
    have others : (xs.filter fun x => (key? x).any (k :: rest).contains).filter
        (fun x => !decide (key? x = some k)) = xs.filter fun x => (key? x).any rest.contains := by
      rw [List.filter_filter]
      refine List.filter_congr fun x _ => ?_
      cases key : key? x with
      | none => rfl
      | some k' =>
        by_cases same : k' = k
        · simp [same, fresh]
        · simp [same]
    rw [List.flatMap_cons]
    refine ((ih distinct).append_left _).trans ?_
    rw [← first, ← others]
    exact List.filter_append_perm _ _

theorem isSome_group? (valid : v.isValid = true) :
    (v.group? rates).isSome = (v.kind != .percentage) := by
  cases v with
  | empty | error => cases valid
  | amount n d => cases d <;> rfl

theorem mem_groups {g : TotalGroup} (mem : v ∈ vs) (own : v.group? rates = some g) :
    g ∈ groups rates vs := by
  have stranded (code : String) : code ∈ groupKeys rates TotalGroup.code? vs ↔ _ :=
    mem_groupKeys fun _ _ => TotalGroup.code?_eq_some
  have units (q : Quantity) : q ∈ groupKeys rates TotalGroup.quantity? vs ↔ _ :=
    mem_groupKeys fun _ _ => TotalGroup.quantity?_eq_some
  cases g with
  | money | plain => simp [groups]
  | stranded code => simpa [groups, stranded] using ⟨v, mem, own⟩
  | units q => simpa [groups, units] using ⟨v, mem, own⟩

theorem nodup_groups : (groups rates vs).Nodup := by
  have codes := (nodup_groupKeys rates TotalGroup.code? vs).map
    fun _ _ eq => TotalGroup.stranded.inj eq
  have quantities := (nodup_groupKeys rates TotalGroup.quantity? vs).map
    fun _ _ eq => TotalGroup.units.inj eq
  have apart : ∀ g ∈ (groupKeys rates TotalGroup.code? vs).map TotalGroup.stranded,
      ∀ g' ∈ (groupKeys rates TotalGroup.quantity? vs).map TotalGroup.units, g ≠ g' := by
    intro g mem g' mem'
    obtain ⟨code, -, rfl⟩ := List.mem_map.mp mem
    obtain ⟨q, -, rfl⟩ := List.mem_map.mp mem'
    exact TotalGroup.noConfusion
  have keyed := List.nodup_append.mpr ⟨codes, quantities, apart⟩
  rw [groups, List.nodup_cons, List.nodup_append]
  refine ⟨by simp, keyed, List.nodup_singleton _, ?_⟩
  simp only [List.mem_append, List.mem_map, List.mem_singleton]
  rintro g (⟨_, -, rfl⟩ | ⟨_, -, rfl⟩) _ rfl <;> exact TotalGroup.noConfusion

/-- The groups have each amount exactly once. -/
theorem perm_members (rates : RateTable) (vs : List Value) :
    ((groups rates vs).flatMap fun g => members rates g vs).Perm
      (vs.filter fun v => (v.group? rates).isSome) := by
  refine (perm_flatMap_filter (Value.group? rates) nodup_groups vs).trans (.of_eq ?_)
  refine List.filter_congr fun v mem => ?_
  cases own : v.group? rates with
  | none => rfl
  | some g => simpa using mem_groups mem own

theorem moneyCode?_eq_some {code : String} (h : moneyCode? vs = some code) :
    ∃ v ∈ vs, v.code = code := by
  obtain ⟨v, found, rfl⟩ := Option.map_eq_some_iff.mp h
  refine ⟨v, ?_, rfl⟩
  rcases Denomination.of_orElse found with last | first
  · exact List.mem_reverse.mp (List.mem_of_find?_eq_some last)
  · exact List.mem_of_mem_head? first

theorem known_baseCode : ∃ d, Denomination.ofRateCode? baseCode = some d ∧ d.code = baseCode :=
  ⟨.currency .usDollar, by decide +kernel, by decide +kernel⟩

/-- The total of money where something has a rate under each code. -/
theorem moneyTotal_money {g : Grouping} (h : Sums rates vs g) (known : ∀ v ∈ vs, v.Known) :
    MoneyTotal rates (members rates .money vs) (g.money rates).toList := by
  rw [Grouping.money, h.moneyCode]
  cases first : moneyCode? (members rates .money vs) with
  | none => exact .none (moneyCode?_eq_none.mp first)
  | some code =>
    obtain ⟨v, mem, rfl⟩ := moneyCode?_eq_some first
    obtain ⟨d, found, same⟩ := known v (List.mem_filter.mp mem).1
      (isRated_of_money (group?_of_mem_members mem))
    rw [Option.bind_some, h.dollars]
    cases way : rates.convert? (dollarSum rates (members rates .money vs)) baseCode v.code with
    | some n =>
      simp only [found]
      exact .converted first way same
    | none =>
      obtain ⟨d, found, same⟩ := known_baseCode
      simp only [found]
      exact .dollars first way same

theorem StrandedTotal.valid {code : String} {total : Value} (h : StrandedTotal code vs total) :
    total.isValid = true := by
  cases h
  rfl

theorem MoneyTotal.valid {totals : List Value} (h : MoneyTotal rates vs totals) :
    ∀ v ∈ totals, v.isValid = true := by
  cases h <;> simp [Value.isValid]

/-- In every session of a workspace whose clients bind no currencies of unknown codes, and for all
rates, the totals are, in order, that of the money, one for each code without a way to dollars, one
for each quantity, and that of the plain numbers if it is not zero, each one the total of its group.
The groups have the amount of each line that counts exactly once, percentages apart, and every total
is an amount. -/
theorem grouped_totals_count_once {cache : RateCache} {actions : List Workspace.Action}
    (given : ∀ a ∈ actions, a.Known) {s : Session}
    (mem : s ∈ ((Workspace.ofRates cache).run actions).sessions) (rates : RateTable) :
    let vs := (s.history.filter (·.counts)).map (·.value)
    (∃ (money : List Value) (stranded : Entries String Value) (units : Entries Quantity Value),
      s.groupedTotals rates = money ++ stranded.map (·.2) ++ units.map (·.2) ++
        plainTotal (members rates .plain vs) ∧
      MoneyTotal rates (members rates .money vs) money ∧
      Tallies rates TotalGroup.code? .stranded StrandedTotal vs stranded ∧
      Tallies rates TotalGroup.quantity? .units (fun _ => UnitTotal) vs units) ∧
    ((groups rates vs).flatMap fun g => members rates g vs).Perm
      (vs.filter (·.kind != .percentage)) ∧
    ∀ v ∈ s.groupedTotals rates, v.isValid = true := by
  intro vs
  have known : ∀ v ∈ vs, v.Known := by
    intro v mem'
    obtain ⟨r, counts, rfl⟩ := List.mem_map.mp mem'
    exact (Workspace.known_run cache given s mem).history r (List.mem_filter.mp counts).1
  have valid : ∀ v ∈ vs, v.isValid = true := by
    intro v mem'
    obtain ⟨r, counts, rfl⟩ := List.mem_map.mp mem'
    exact (Bool.and_eq_true_iff.mp (List.mem_filter.mp counts).2).2
  have sums := sums_foldl rates vs
  have totals : s.groupedTotals rates = (vs.foldl (Grouping.add · rates) {}).values rates := by
    rw [Session.groupedTotals, List.foldl_map]
  have money := moneyTotal_money sums known
  generalize vs.foldl (Grouping.add · rates) {} = g at sums totals money
  have plain : (if g.plain != 0 then [.number g.plain] else []) =
      plainTotal (members rates .plain vs) := by rw [plainTotal, sums.plain]
  rw [Grouping.values, plain] at totals
  refine ⟨⟨_, _, _, totals, money, sums.stranded, sums.units⟩, ?_, ?_⟩
  · refine (perm_members rates vs).trans (.of_eq (List.filter_congr fun v mem' => ?_))
    exact isSome_group? (valid v mem')
  · rw [totals]
    simp only [List.forall_mem_append, List.forall_mem_map]
    refine ⟨⟨⟨money.valid, fun e mem' => ?_⟩, fun e mem' => ?_⟩, ?_⟩
    · exact (sums.stranded.totals e mem').valid
    · obtain ⟨_, _, _, -, amount⟩ := (sums.units.totals e mem').last
      rw [amount]
      rfl
    · rw [plainTotal]
      split
      · exact List.forall_mem_singleton.mpr rfl
      · exact List.forall_mem_nil _

end

/-- A session with euros in a variable and with one line. -/
def exEuros : Session := { exNumber with bindings := [("x", .amount 2 (.currency .euro))] }

theorem run_exEuros : (Workspace.ofRates (.empty 60)).run
    [.ask 0 (.setVariable "x" (.amount 2 (.currency .euro))), .ask 0 (.eval "2")] =
    { sessions := [exEuros], rates := .empty 60 } := by
  have free : isReservedName "x" = false := by decide +kernel
  have bound : ({} : Session).perform [] (.setVariable "x" (.amount 2 (.currency .euro))) =
      (.accepted true, { bindings := [("x", .amount 2 (.currency .euro))] }) := by
    rw [Session.perform, Session.setVariable?_of_valid free rfl]
    rfl
  have line : ({ bindings := [("x", .amount 2 (.currency .euro))] } : Session).perform []
      (.eval "2") = (.value (.ok (.number 2)), exEuros) := by
    have done : ({ bindings := [("x", .amount 2 (.currency .euro))] } : Session).eval [] "2" =
        .ok (.number 2, exEuros) := Session.eval_of_expr parse_exNumber rfl rfl
    rw [Session.perform, done]
  calc (Workspace.ofRates (.empty 60)).run
        [.ask 0 (.setVariable "x" (.amount 2 (.currency .euro))), .ask 0 (.eval "2")]
    _ = (({ sessions := [(({} : Session).perform []
          (.setVariable "x" (.amount 2 (.currency .euro)))).2], rates := .empty 60 } :
          Workspace).take (.ask 0 (.eval "2"))).2 := rfl
    _ = { sessions := [(({ bindings := [("x", .amount 2 (.currency .euro))] } : Session).perform []
          (.eval "2")).2], rates := .empty 60 } := by
      rw [bound]
      rfl
    _ = { sessions := [exEuros], rates := .empty 60 } := by rw [line]

theorem grouped_totals_count_once_exEuros :
    let actions : List Workspace.Action :=
      [.ask 0 (.setVariable "x" (.amount 2 (.currency .euro))), .ask 0 (.eval "2")]
    (∀ a ∈ actions, a.Known) ∧
    exEuros ∈ ((Workspace.ofRates (.empty 60)).run actions).sessions ∧
    ((groups [] [.number 2]).flatMap fun g => members [] g [.number 2]).Perm [.number 2] ∧
    ∀ v ∈ exEuros.groupedTotals [], v.isValid = true := by
  intro actions
  have listed : Denomination.currency .euro ∈ Denomination.listed := by decide +kernel
  have euro : (Value.amount 2 (.currency .euro)).Known := by
    rw [Value.known_iff, Value.type_amount]
    exact Denomination.known_of_mem_listed listed
  have given : ∀ a ∈ actions, a.Known := by
    simp only [actions, List.forall_mem_cons]
    exact ⟨euro, trivial, List.forall_mem_nil _⟩
  have mem : exEuros ∈ ((Workspace.ofRates (.empty 60)).run actions).sessions := by
    rw [run_exEuros]
    exact List.mem_singleton_self _
  obtain ⟨-, once, valid⟩ := grouped_totals_count_once given mem []
  exact ⟨given, mem, once, valid⟩

end LineCalc
