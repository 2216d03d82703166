import LineCalc.Proofs.Decimal.Order
import LineCalc.Proofs.Evaluation.Aggregate
import LineCalc.Proofs.Evaluation.OperandOrder

/-!
# Aggregates of different units

An operator converts its second operand into the unit of the first; an aggregate takes the numbers of
its arguments as they are and calls the result an amount of the first argument's unit. So for
arguments of one unit both agree. For arguments of different units of one quantity they do not: a
kilometre and 500 metres are 1.5 kilometres for the operator and 501 for the sum, and the greatest of
both is 500 kilometres.

Results:
1. `sumAgrees_iff`: the sum of two amounts of units is the one that the operator has, exactly if the
   bare numbers have the same finite sum as the converted ones.
2. `extremeLaw_iff`: the least or the greatest of some amounts of units is the right one exactly if
   the bare numbers and the converted ones have the same.
3. `aggregates_of_units`: so they are right for one unit, and wrong for some amounts of any two.
-/

namespace LineCalc

open Decimal

/-! ## What the laws say -/

/-- The sum of two values is what the operator adds them up to. -/
def SumAgrees (rates : RateTable) (name : String) (v w : Value) : Prop :=
  ∃ x y, Aggregate.sum.apply name [v, w] = .ok x ∧ v.apply rates .add w = .ok y ∧
    x.type = y.type ∧ (x.magnitude == y.magnitude) = true

/-- An amount of a unit comes to so much of another unit. -/
inductive Value.ComesTo (u : MeasureUnit) : Value → Float → Prop
  | unit {n c : Float} {w : MeasureUnit} :
      w.convert n u = some c → ComesTo u (.amount n (.unit w)) c

/-- The aggregates that take one of their arguments, and what they prefer. -/
inductive Aggregate.Picks : Aggregate → (Float → Float → Prop) → Prop
  | least : Picks .least (· < ·)
  | greatest : Picks .greatest (· > ·)

/-- The result is the amount that comes before the others, after all of them are expressed in the unit
of the first one. -/
def ExtremeLaw (before : Float → Float → Prop) (u : MeasureUnit) (args : List Value)
    (result : Except Fault Value) : Prop :=
  ∃ cs x m, List.Forall₂ (Value.ComesTo u) args cs ∧ FirstOf before cs x ∧ (m == x) = true ∧
    result = .ok (.amount m (.unit u))

section

variable {rates : RateTable} {name : String} {u w : MeasureUnit} {a b c n m : Float} {v : Value}
  {rest args : List Value} {cs : List Float} {g : Aggregate} {before : Float → Float → Prop}

/-! ## Sums -/

/-- The operator converts the second of two amounts of units. -/
theorem apply_add_units (converted : w.convert b u = some c) :
    (Value.amount a (.unit u)).apply rates .add (.amount b (.unit w)) =
      .ok (Value.amount (a + c) (.unit u)).checked := by
  have sum : (Value.amount a (.unit u)).apply rates .add (.amount b (.unit w)) =
      .ok (Value.combine rates (· + ·) (.amount a (.unit u)) (.amount b (.unit w))) := rfl
  rw [sum]
  by_cases one : u = w
  · subst one
    rw [MeasureUnit.convert_self] at converted
    cases converted
    rw [combine_of_type rfl]
  · have different : ¬((Value.amount a (.unit u)).combinesWith (.amount b (.unit w))) = true := by
      rw [Value.combinesWith_iff]
      rintro (number | number | same)
      · cases number
      · cases number
      · exact one (MeasureUnit.eq_of_code (Value.type_eq_iff.mp same).2)
    have number (x : Float) (y : MeasureUnit) : (Value.amount x (.unit y)).isNumber = false := rfl
    simp only [Value.combine, number, different, converted, Bool.false_or, Bool.false_eq_true,
      if_false]

/-- The total of two numbers is their sum, rounded as that is. -/
theorem sumOf_pair (finite : a.isFinite = true) (finite' : b.isFinite = true) :
    (a + b).isFinite = false ∧ sumOf [a, b] = .error .sumOverflow ∨
      (a + b).isFinite = true ∧ ∃ x, sumOf [a, b] = .ok x ∧ (a + b == x) = true := by
  have through : Summable [.number a, .number b] ↔ (a + b).isFinite = true := by
    rw [← isSome_expansion?_pair finite finite']
    rfl
  have args : ∀ v ∈ [Value.number a, .number b], v.isFinite = true := by
    simp only [List.forall_mem_cons]
    exact ⟨finite, finite', nofun⟩
  rcases sumOf_outcome args with ⟨overflow, none⟩ | ⟨summable, x, sum, rounds⟩
  · exact .inl ⟨Bool.eq_false_iff.mpr fun h => overflow (through.mpr h), none⟩
  · have total : exactTotal [.number a, .number b] = exactValue a + exactValue b := by
      show exactValue a + (exactValue b + 0) = _
      rw [add_zero]
    rw [total] at rounds
    exact .inr ⟨through.mp summable, x, sum, (rounds_add finite finite').unique rounds⟩

theorem sumAgrees_iff (finite : a.isFinite = true) (finite' : b.isFinite = true)
    (converted : w.convert b u = some c) :
    SumAgrees rates name (.amount a (.unit u)) (.amount b (.unit w)) ↔
      (a + b).isFinite = true ∧ (a + b == a + c) = true := by
  have applied : Aggregate.sum.apply name [.amount a (.unit u), .amount b (.unit w)] =
      (sumOf [a, b]).map fun x => (Value.amount x (.unit u)).checked := rfl
  rw [SumAgrees, applied, apply_add_units converted, Value.checked_amount]
  rcases sumOf_pair finite finite' with ⟨infinite, none⟩ | ⟨summable, x, sum, same⟩
  · rw [none, infinite]
    refine iff_of_false ?_ nofun
    rintro ⟨y, z, result, -⟩
    cases result
  · have bare : (Value.amount x (.unit u)).checked = .amount x (.unit u) :=
      if_pos (isFinite_of_beq summable same)
    rw [sum, Except.map, bare, beq_congr_left summable same]
    constructor
    · rintro ⟨_, _, ⟨⟩, ⟨⟩, type, equal⟩
      split at type
      · next inRange =>
        rw [if_pos inRange] at equal
        exact ⟨summable, equal⟩
      · cases congrArg ValueType.kind type
    · rintro ⟨-, equal⟩
      rw [← beq_congr_left summable same] at equal
      rw [if_pos (isFinite_of_beq summable equal)]
      exact ⟨_, _, rfl, rfl, rfl, (beq_congr_left summable same).symm.trans equal⟩

/-! ## Least and greatest -/

theorem Aggregate.Picks.outcome (picks : g.Picks before) (name : String) (first : Value)
    (rest : List Value) :
    ∃ m, FirstOf before ((first :: rest).map (·.magnitude)) m ∧
      g.apply name (first :: rest) = .ok (first.withAmount m) := by
  cases picks with
  | least =>
    exact ⟨_, firstOf_foldl lt_irrefl_double (fun x y z => lt_trans_double) .., rfl⟩
  | greatest =>
    have irrefl (x : Float) : ¬x > x := lt_irrefl_double x
    have trans (x y z : Float) (first : x > y) (second : y > z) : x > z :=
      lt_trans_double second first
    have extreme : FirstOf (· > ·) ((first :: rest).map (·.magnitude))
        (greatestOf first.magnitude (rest.map (·.magnitude))) :=
      firstOf_foldl irrefl trans ..
    exact ⟨_, extreme, rfl⟩

theorem Value.ComesTo.unique : Relator.RightUnique (Value.ComesTo u) := by
  rintro _ c x ⟨converted⟩ ⟨converted'⟩
  exact Option.some.inj (converted.symm.trans converted')

/-- Amounts of one quantity can all be expressed in one unit. -/
theorem exists_comesTo
    (units : ∀ v ∈ args, ∃ w, v.unit? = some w ∧ w.quantity = u.quantity) :
    ∃ cs, List.Forall₂ (Value.ComesTo u) args cs := by
  induction args with
  | nil => exact ⟨[], .nil⟩
  | cons v vs ih =>
    obtain ⟨⟨w, unit, same⟩, others⟩ := List.forall_mem_cons.mp units
    obtain ⟨n, rfl⟩ := Value.unit?_eq_some.mp unit
    obtain ⟨c, converted⟩ := MeasureUnit.exists_convert same n
    obtain ⟨cs, rest⟩ := ih others
    exact ⟨c :: cs, .cons (.unit converted) rest⟩

theorem extremeLaw_iff (amounts : List.Forall₂ (Value.ComesTo u) args cs) :
    ExtremeLaw before u args (.ok (.amount m (.unit u))) ↔
      ∃ x, FirstOf before cs x ∧ (m == x) = true := by
  constructor
  · rintro ⟨cs', x, m', amounts', first, same, result⟩
    cases result
    cases Value.ComesTo.unique.forall₂ amounts amounts'
    exact ⟨x, first, same⟩
  · rintro ⟨x, first, same⟩
    exact ⟨cs, x, m, amounts, first, same, rfl⟩

/-- Amounts of one unit need no conversion. -/
theorem extremeLaw_of_unit (picks : g.Picks before) (name : String) {first : Value}
    (one : ∀ v ∈ first :: rest, v.unit? = some u) (finite : ∀ v ∈ first :: rest, v.isFinite = true) :
    ExtremeLaw before u (first :: rest) (g.apply name (first :: rest)) := by
  have amounts : List.Forall₂ (Value.ComesTo u) (first :: rest)
      ((first :: rest).map (·.magnitude)) := by
    rw [List.forall₂_map_right_iff, List.forall₂_same]
    intro v mem
    obtain ⟨n, rfl⟩ := Value.unit?_eq_some.mp (one v mem)
    exact .unit (u.convert_self n)
  obtain ⟨m, extreme, result⟩ := picks.outcome name first rest
  obtain ⟨v, mem, rfl⟩ := List.mem_map.mp extreme.member
  obtain ⟨n, rfl⟩ := Value.unit?_eq_some.mp (one first List.mem_cons_self)
  rw [result]
  have own := beq_iff_exactValue (finite v mem) (finite v mem)
  exact (extremeLaw_iff amounts).mpr ⟨_, extreme, own.mpr rfl⟩

/-! ## Different units -/

namespace MeasureUnit

set_option maxRecDepth 100000 in
theorem factors_all :
    all.all (fun u => u.factors.all fun p => p.2.isFinite && !(1 == p.2)) = true := by
  decide +kernel

theorem scales_all : all.all (fun u => all.all fun w =>
    u.quantity != .temperature || w.quantity != .temperature || u == w ||
      (ofKelvin (toKelvin 1 u) w).isFinite && !(1 == ofKelvin (toKelvin 1 u) w)) = true := by
  decide +kernel

/-- One of a unit is not one of another unit. -/
theorem one_ne_convert_one (apart : w ≠ u) (converted : w.convert 1 u = some c) :
    c.isFinite = true ∧ (1 == c) = false := by
  rw [← Bool.not_eq_true', ← Bool.and_eq_true]
  rw [convert] at converted
  split at converted
  · cases converted
  next same =>
  split at converted
  · next scale =>
    cases converted
    have other := (not_not.mp same).symm.trans scale
    have pair := List.all_eq_true.mp (List.all_eq_true.mp scales_all w w.mem_all) u u.mem_all
    simpa only [scale, other, bne_self_eq_false, Bool.false_or, beq_false_of_ne apart] using pair
  · obtain ⟨x, found, rfl⟩ := Option.map_eq_some_iff.mp converted
    rw [one_mul_double]
    have factors := List.all_eq_true.mp factors_all w w.mem_all
    exact List.all_eq_true.mp factors (u, x) (Entries.mem_of_lookup found)

end MeasureUnit

theorem not_sumAgrees (same : u.quantity = w.quantity) (apart : u ≠ w) :
    ¬SumAgrees rates name (.amount 0 (.unit u)) (.amount 1 (.unit w)) := by
  obtain ⟨c, converted⟩ := MeasureUnit.exists_convert same.symm 1
  obtain ⟨finite, other⟩ := MeasureUnit.one_ne_convert_one apart.symm converted
  have bare : (0 + c == c) = true := by
    have sum := rounds_add (x := 0) rfl finite
    rw [exactValue_zero, zero_add] at sum
    exact sum.unique (rounds_exactValue finite)
  rw [sumAgrees_iff rfl rfl converted]
  rintro ⟨-, equal⟩
  change (1 == 0 + c) = true at equal
  rw [beq_congr_left rfl equal, bare] at other
  cases other

/-- A bare one is none of the converted numbers. -/
theorem not_extremeLaw_one (same : u.quantity = w.quantity) (apart : u ≠ w)
    (other : ((1 : Float) == n) = false) :
    ¬ExtremeLaw before u [.amount n (.unit u), .amount 1 (.unit w)] (.ok (.amount 1 (.unit u))) := by
  obtain ⟨c, converted⟩ := MeasureUnit.exists_convert same.symm 1
  have amounts : List.Forall₂ (Value.ComesTo u) [.amount n (.unit u), .amount 1 (.unit w)] [n, c] :=
    .cons (.unit (u.convert_self n)) (.cons (.unit converted) .nil)
  rw [extremeLaw_iff amounts]
  rintro ⟨x, ⟨member, -⟩, equal⟩
  rcases List.mem_pair.mp member with rfl | rfl
  · cases other.symm.trans equal
  · cases (MeasureUnit.one_ne_convert_one apart.symm converted).2.symm.trans equal

theorem exists_not_extremeLaw (picks : g.Picks before) (name : String)
    (same : u.quantity = w.quantity) (apart : u ≠ w) :
    ∃ n : Float, n.isFinite = true ∧
      ¬ExtremeLaw before u [.amount n (.unit u), .amount 1 (.unit w)]
        (g.apply name [.amount n (.unit u), .amount 1 (.unit w)]) := by
  cases picks with
  | least =>
    have least : leastOf 2 [1] = 1 := rfl
    have result : Aggregate.least.apply name [.amount 2 (.unit u), .amount 1 (.unit w)] =
        .ok (.amount (leastOf 2 [1]) (.unit u)) := rfl
    refine ⟨2, rfl, ?_⟩
    rw [result, least]
    exact not_extremeLaw_one same apart rfl
  | greatest =>
    have greatest : greatestOf 0 [1] = 1 := rfl
    have result : Aggregate.greatest.apply name [.amount 0 (.unit u), .amount 1 (.unit w)] =
        .ok (.amount (greatestOf 0 [1]) (.unit u)) := rfl
    refine ⟨0, rfl, ?_⟩
    rw [result, greatest]
    exact not_extremeLaw_one same apart rfl

end

/-- The sum of two amounts of units of one quantity is the one that the operator has, exactly if
their bare numbers have a finite sum, the same as with the second one converted. The least or greatest
of such amounts is that of the bare numbers, and right exactly if the converted numbers have the same.
So it is right for amounts of one unit. For any two different units of one quantity there are amounts
for which the sum, the least and the greatest are wrong. -/
theorem aggregates_of_units (rates : RateTable) (name : String) (u : MeasureUnit) {g : Aggregate}
    {before : Float → Float → Prop} (picks : g.Picks before) :
    (∀ w a b, u.quantity = w.quantity → a.isFinite = true → b.isFinite = true →
      ∃ c, w.convert b u = some c ∧
        (SumAgrees rates name (.amount a (.unit u)) (.amount b (.unit w)) ↔
          (a + b).isFinite = true ∧ (a + b == a + c) = true)) ∧
    (∀ first rest, first.unit? = some u →
      (∀ v ∈ rest, ∃ w, v.unit? = some w ∧ w.quantity = u.quantity) →
      ∃ cs m, List.Forall₂ (Value.ComesTo u) (first :: rest) cs ∧
        FirstOf before ((first :: rest).map (·.magnitude)) m ∧
        g.apply name (first :: rest) = .ok (.amount m (.unit u)) ∧
        (ExtremeLaw before u (first :: rest) (g.apply name (first :: rest)) ↔
          ∃ x, FirstOf before cs x ∧ (m == x) = true)) ∧
    (∀ first rest, (∀ v ∈ first :: rest, v.unit? = some u) →
      (∀ v ∈ first :: rest, v.isFinite = true) →
      ExtremeLaw before u (first :: rest) (g.apply name (first :: rest))) ∧
    ∀ w, u.quantity = w.quantity → u ≠ w →
      ¬SumAgrees rates name (.amount 0 (.unit u)) (.amount 1 (.unit w)) ∧
        ∃ n : Float, n.isFinite = true ∧
          ¬ExtremeLaw before u [.amount n (.unit u), .amount 1 (.unit w)]
            (g.apply name [.amount n (.unit u), .amount 1 (.unit w)]) := by
  refine ⟨fun w a b same finite finite' => ?_, fun first rest unit units => ?_,
    fun first rest one finite => extremeLaw_of_unit picks name one finite,
    fun w same apart => ⟨not_sumAgrees same apart, exists_not_extremeLaw picks name same apart⟩⟩
  · obtain ⟨c, converted⟩ := MeasureUnit.exists_convert same.symm b
    exact ⟨c, converted, sumAgrees_iff finite finite' converted⟩
  · obtain ⟨cs, amounts⟩ : ∃ cs, List.Forall₂ (Value.ComesTo u) (first :: rest) cs :=
      exists_comesTo (List.forall_mem_cons.mpr ⟨⟨u, unit, rfl⟩, units⟩)
    obtain ⟨m, extreme, result⟩ := picks.outcome name first rest
    obtain ⟨n, rfl⟩ := Value.unit?_eq_some.mp unit
    refine ⟨cs, m, amounts, extreme, result, ?_⟩
    rw [result]
    exact extremeLaw_iff amounts

/-- Two kilometres and nothing in metres, and the greatest of two and three kilometres. -/
theorem aggregates_of_units_exKilometers :
    let two := Value.amount 2 (.unit .kilometer)
    let three := Value.amount 3 (.unit .kilometer)
    let nothing := Value.amount 0 (.unit .meter)
    SumAgrees [] "sum" two nothing ∧
      (∃ m, FirstOf (· > ·) [2, 0] m ∧
        Aggregate.greatest.apply "max" [two, nothing] = .ok (.amount m (.unit .kilometer))) ∧
      ExtremeLaw (· > ·) .kilometer [two, three] (Aggregate.greatest.apply "max" [two, three]) ∧
      ¬SumAgrees [] "sum" (.amount 0 (.unit .kilometer)) (.amount 1 (.unit .meter)) := by
  intro two three nothing
  have sums := aggregates_of_units [] "sum" .kilometer .greatest
  have extremes := aggregates_of_units [] "max" .kilometer .greatest
  refine ⟨?_, ?_, ?_, (sums.2.2.2 .meter rfl nofun).1⟩
  · obtain ⟨c, converted, agrees⟩ := sums.1 .meter 2 0 rfl (by decide +kernel) (by decide +kernel)
    have zero : MeasureUnit.meter.convert 0 .kilometer = some 0 := by decide +kernel
    cases zero.symm.trans converted
    exact agrees.mpr (by decide +kernel)
  · have units : ∀ v ∈ [nothing], ∃ w, v.unit? = some w ∧ w.quantity = .length := by
      rintro v (_ | ⟨_, ⟨⟩⟩)
      exact ⟨.meter, rfl, rfl⟩
    obtain ⟨cs, m, -, extreme, result, -⟩ := extremes.2.1 two [nothing] rfl units
    exact ⟨m, extreme, result⟩
  · refine extremes.2.2.1 two [three] ?_ (by decide +kernel)
    rintro v (_ | ⟨_, _ | ⟨_, ⟨⟩⟩⟩) <;> rfl

/-- A kilometre and 500 metres are 1.5 kilometres, and the kilometre is the greater one. -/
theorem sumAgrees_exMetres :
    let long := Value.amount 1 (.unit .kilometer)
    let short := Value.amount 500 (.unit .meter)
    (Aggregate.sum.apply "sum" [long, short] = .ok (.amount 501 (.unit .kilometer)) ∧
      long.apply [] .add short = .ok (.amount 1.5 (.unit .kilometer)) ∧
      ¬SumAgrees [] "sum" long short) ∧
    Aggregate.greatest.apply "max" [long, short] = .ok (.amount 500 (.unit .kilometer)) ∧
      ¬ExtremeLaw (· > ·) .kilometer [long, short]
        (Aggregate.greatest.apply "max" [long, short]) := by
  intro long short
  have sum : Aggregate.sum.apply "sum" [long, short] = .ok (.amount 501 (.unit .kilometer)) :=
    eq_ok_of_toOption (by decide +kernel)
  have added : long.apply [] .add short = .ok (.amount 1.5 (.unit .kilometer)) :=
    eq_ok_of_toOption (by decide +kernel)
  have greatest : Aggregate.greatest.apply "max" [long, short] =
      .ok (.amount 500 (.unit .kilometer)) := eq_ok_of_toOption (by decide +kernel)
  refine ⟨⟨sum, added, ?_⟩, greatest, ?_⟩
  · rintro ⟨x, y, result, result', -, same⟩
    cases sum.symm.trans result
    cases added.symm.trans result'
    exact absurd same (by decide +kernel)
  · have converted : MeasureUnit.meter.convert 500 .kilometer = some 0.5 := by decide +kernel
    have amounts : List.Forall₂ (Value.ComesTo .kilometer) [long, short] [1, 0.5] :=
      .cons (.unit (MeasureUnit.convert_self _ 1)) (.cons (.unit converted) .nil)
    rw [greatest, extremeLaw_iff amounts]
    rintro ⟨x, ⟨member, -⟩, same⟩
    rcases List.mem_pair.mp member with rfl | rfl
    · exact absurd same (by decide +kernel)
    · exact absurd same (by decide +kernel)

end LineCalc
