import LineCalc.Proofs.Evaluation.OperatorLaw

/-!
# The law of conversions

A conversion looks up what its target names, after a unit among the units first, and counts the value
in that. Numbers count anything, units the units of their quantity, and money, metals and tokens each
other by rates; all else is a problem. The amount is not checked afterwards, so an amount of many
kilometres becomes an infinite one of millimetres.

Results:
1. `convertTo_eq_amount_iff`: what a conversion makes of a value, and when.
2. `ConversionLaw`: what a conversion should make of a value.
3. `conversionLaw_iff`: the law holds of a conversion exactly if its result is finite.
-/

namespace LineCalc

open Value

/-! ## What the law says -/

namespace Value

/-- What a name stands for as the target of a conversion. After a unit a unit comes first. -/
def target? (v : Value) (name : String) : Option Denomination :=
  (v.unit?.bind fun _ => (MeasureUnit.ofName? name).map .unit) <|> Denomination.ofName? name

/-- A value comes to an amount of something else: a number counts anything, a unit what measures the
same quantity, and what has a rate counts what there is a rate to. Nothing counts as zero. -/
inductive CountedIn (rates : RateTable) (v : Value) (d : Denomination) : Float → Prop
  | number : v.asOperand.isNumber = true → CountedIn rates v d v.magnitude
  | unit {u w : MeasureUnit} {m : Float} :
      v.unit? = some u → d = .unit w → u.quantity = w.quantity → u.convert v.magnitude w = some m →
      CountedIn rates v d m
  | rated {r : Float} :
      v.isRated = true → d.isRated = true → rates.rate? v.code d.code = some r →
      CountedIn rates v d (v.magnitude * r)

/-- The amount of a value counted in something else, if there is one. -/
def countIn? (rates : RateTable) (v : Value) (d : Denomination) : Option Float :=
  if v.asOperand.isNumber then some v.magnitude
  else match v.unit?, d with
    | some u, .unit w => u.convert v.magnitude w
    | _, _ => if v.isRated && d.isRated then rates.convert? v.magnitude v.code d.code else none

end Value

/-- What a conversion should make of a value, if the result is `u`. -/
structure ConversionLaw (rates : RateTable) (name : String) (v u : Value) : Prop where
  outcome : u.isValid = true ∧ u.magnitude.isFinite = true ∨ u.isError = true
  target : u.isValid = true → ∃ d, v.target? name = some d ∧ u.denomination? = some d
  valid : u.isValid = true ↔
    ∃ d m, v.target? name = some d ∧ v.CountedIn rates d m ∧ m.isFinite = true
  number : v.asOperand.isNumber = true → u.isValid = true → u.magnitude = v.magnitude

section

variable {rates : RateTable} {name : String} {v w : Value} {n m : Float} {d e : Denomination}
  {u : MeasureUnit}

/-! ## Targets -/

namespace Denomination

set_option maxRecDepth 100000 in
theorem ofRateCode?_codes :
    listed.all (fun d => !d.isRated || ofRateCode? d.code == some d) = true := by
  decide +kernel

/-- What a name stands for has its rate under its own code. -/
theorem ofRateCode?_of_ofName? (named : ofName? name = some d) (rated : d.isRated = true) :
    ofRateCode? d.code = some d := by
  have own := List.all_eq_true.mp ofRateCode?_codes d (mem_listed_of_ofName? named)
  rw [rated, Bool.not_true, Bool.false_or, beq_iff_eq] at own
  exact own

theorem ofName?_empty : ofName? "" = none := by decide +kernel

/-- Only the name of a unit stands for a unit. -/
theorem unit_of_ofName? (named : ofName? name = some (unit u)) :
    MeasureUnit.ofName? name = some u := by
  rcases of_orElse named with h | h
  · obtain ⟨c, -, other⟩ := Option.map_eq_some_iff.mp h
    cases other
  rcases of_orElse h with h | h
  · obtain ⟨k, -, other⟩ := Option.map_eq_some_iff.mp h
    cases other
  rcases of_orElse h with h | h
  · obtain ⟨m, -, other⟩ := Option.map_eq_some_iff.mp h
    cases other
  · obtain ⟨x, found, same⟩ := Option.map_eq_some_iff.mp h
    cases same
    exact found

end Denomination

namespace Value

theorem target?_of_unit (named : MeasureUnit.ofName? name = some u) {x : MeasureUnit} :
    (amount n (.unit x)).target? name = some (.unit u) := by
  simp [target?, unit?, named]

theorem target?_of_no_unit (h : v.unit? = none ∨ MeasureUnit.ofName? name = none) :
    v.target? name = Denomination.ofName? name := by
  rcases h with h | h <;> simp [target?, h]

/-- The empty name stands for nothing. -/
theorem nonempty_of_target? (named : v.target? name = some d) : name.isEmpty = false := by
  refine Bool.eq_false_iff.mpr fun empty => ?_
  obtain rfl : name = "" := String.isEmpty_iff.mp empty
  have noUnit : MeasureUnit.ofName? "" = none := by decide +kernel
  rw [target?_of_no_unit (.inr noUnit), Denomination.ofName?_empty] at named
  cases named

/-! ## Results -/

/-- Where units are not looked up first, a conversion is to what the name stands for. -/
theorem convertTo_of_no_unit (valid : v.isError = false) (nonempty : name.isEmpty = false)
    (h : v.unit? = none ∨ MeasureUnit.ofName? name = none) :
    v.convertTo rates name = convertNamed rates v.asOperand name := by
  cases v with
  | error p => cases valid
  | empty =>
    simp only [convertTo, nonempty, Bool.false_eq_true, if_false]
    rfl
  | amount n d =>
    simp only [convertTo, nonempty, Bool.false_eq_true, if_false]
    cases d with
    | unit u =>
      simp only [h.resolve_left fun none => by cases none]
      rfl
    | plain | percent | currency | metal | crypto => rfl

/-- After a unit, the name of a unit is that unit. -/
theorem convertTo_of_unit {x : MeasureUnit} (nonempty : name.isEmpty = false)
    (named : MeasureUnit.ofName? name = some u) :
    (amount n (.unit x)).convertTo rates name =
      (x.convert n u).elim (.error (.unitMismatch x.code u.code)) fun m => .amount m (.unit u) := by
  simp only [convertTo, nonempty, Bool.false_eq_true, if_false, named]
  cases x.convert n u <;> rfl

theorem countIn?_of_number (number : v.asOperand.isNumber = true) :
    v.countIn? rates d = some v.magnitude := if_pos number

theorem countIn?_of_units {x : MeasureUnit} :
    (amount n (.unit x)).countIn? rates (.unit u) = x.convert n u := rfl

/-- What is not a number is counted by rates, but for a unit in units. -/
theorem countIn?_of_other (other : v.asOperand.isNumber = false)
    (units : v.unit? = none ∨ ∀ u, d ≠ .unit u) : v.countIn? rates d =
      if v.isRated && d.isRated then rates.convert? v.magnitude v.code d.code else none := by
  rw [countIn?, if_neg (Bool.eq_false_iff.mp other)]
  -- It is left to show that not both are units.
  intro u w left right
  rcases units with none | differ
  · cases none.symm.trans left
  · exact differ w right

/-- An amount that is no number is converted to what a name stands for by rates. -/
theorem convertRated_eq (named : Denomination.ofName? name = some d)
    (other : (amount n e).isNumber = false)
    (units : (amount n e).unit? = none ∨ ∀ u, d ≠ .unit u) : ∃ p : Problem, p.kind = .conversion ∧
      convertRated rates (.amount n e) d name =
        (((amount n e).countIn? rates d).map (amount · d)).getD (.error p) := by
  rw [convertRated, countIn?_of_other (v := .amount n e) other units]
  cases rated : (amount n e).isRated && d.isRated with
  | false => exact ⟨_, rfl, rfl⟩
  | true =>
    have both := Bool.and_eq_true_iff.mp rated
    refine ⟨.noRateInto d.code, rfl, ?_⟩
    rw [if_pos rfl, if_pos rfl]
    simp only [RateTable.convertValue?, both.1, Bool.not_true, Bool.false_eq_true, if_false,
      Denomination.ofRateCode?_of_ofName? named both.2]
    rw [Option.map_eq_bind]
    rfl

/-- A conversion counts the value in what the name stands for. -/
theorem convertTo_eq (rates : RateTable) (name : String) (valid : v.isError = false) :
    ∃ p : Problem, p.kind = .conversion ∧ v.convertTo rates name =
      ((v.target? name).bind fun d => (v.countIn? rates d).map (amount · d)).getD (.error p) := by
  by_cases empty : name.isEmpty = true
  · have nothing : v.target? name = none := by
      rw [Option.eq_none_iff_forall_not_mem]
      intro d named
      rw [nonempty_of_target? named] at empty
      cases empty
    refine ⟨.missingTarget, rfl, ?_⟩
    rw [nothing]
    cases v with
    | error p => cases valid
    | empty | amount => exact if_pos empty
  have nonempty := Bool.eq_false_iff.mpr empty
  by_cases units : v.unit? = none ∨ MeasureUnit.ofName? name = none
  · rw [convertTo_of_no_unit valid nonempty units, target?_of_no_unit units]
    unfold convertNamed
    cases named : Denomination.ofName? name with
    | none => exact ⟨_, rfl, rfl⟩
    | some d =>
      dsimp only [Option.bind_some]
      split
      · next number =>
        rw [countIn?_of_number number]
        refine ⟨.missingTarget, rfl, ?_⟩
        cases v with
        | error p => cases valid
        | empty | amount => rfl
      · next other =>
        have other := Bool.eq_false_iff.mpr other
        cases v with
        | error p => cases valid
        | empty => cases other
        | amount n e =>
          refine convertRated_eq named other (units.imp id fun none u unit => ?_)
          subst unit
          rw [Denomination.unit_of_ofName? named] at none
          cases none
  · rw [not_or] at units
    obtain ⟨x, isUnit⟩ := Option.ne_none_iff_exists'.mp units.1
    obtain ⟨u, named⟩ := Option.ne_none_iff_exists'.mp units.2
    obtain ⟨n, rfl⟩ := unit?_eq_some.mp isUnit
    refine ⟨.unitMismatch x.code u.code, rfl, ?_⟩
    rw [convertTo_of_unit nonempty named, target?_of_unit named, Option.bind_some,
      countIn?_of_units]
    cases x.convert n u <;> rfl

/-- The counted amount, and what may be counted. -/
theorem countIn?_eq_some_iff : v.countIn? rates d = some m ↔ v.CountedIn rates d m := by
  constructor
  · intro counted
    unfold countIn? at counted
    split at counted
    · next number =>
      cases counted
      exact .number number
    split at counted
    · next u w unit =>
      have same : u.quantity = w.quantity := by
        by_contra differ
        cases counted.symm.trans (MeasureUnit.convert_eq_none_iff.mpr differ)
      exact .unit unit rfl same counted
    · split at counted
      · next rated =>
        have both := Bool.and_eq_true_iff.mp rated
        obtain ⟨r, rate, rfl⟩ := Option.map_eq_some_iff.mp counted
        exact .rated both.1 both.2 rate
      · cases counted
  · rintro (number | ⟨unit, rfl, -, converted⟩ | ⟨rated, rated', rate⟩)
    · exact countIn?_of_number number
    · obtain ⟨n, rfl⟩ := unit?_eq_some.mp unit
      exact converted
    · have other : v.asOperand.isNumber = false := by
        cases v with
        | empty | error => cases rated
        | amount => exact isNumber_of_rated rated
      rw [countIn?_of_other other (.inl (unit?_of_rated rated)), rated, rated', RateTable.convert?,
        rate]
      rfl

/-- A value comes to one amount of something else. -/
theorem CountedIn.unique {x : Float} (counted : v.CountedIn rates d m)
    (again : v.CountedIn rates d x) : m = x := by
  rw [← countIn?_eq_some_iff] at counted again
  exact Option.some.inj (counted.symm.trans again)

/-- A conversion makes of a value what that comes to of what the name stands for. It is a problem
where the name stands for nothing or the value cannot be counted in that. -/
theorem convertTo_outcome (rates : RateTable) (name : String) (valid : v.isError = false) :
    (∃ d m, v.convertTo rates name = .amount m d ∧ v.target? name = some d ∧
      v.CountedIn rates d m) ∨
    ∃ p, v.convertTo rates name = .error p ∧ p.kind = .conversion ∧
      ∀ d, v.target? name = some d → ∀ m, ¬v.CountedIn rates d m := by
  obtain ⟨p, kind, converted⟩ := convertTo_eq rates name valid
  rw [converted]
  cases v.target? name with
  | none => exact .inr ⟨p, rfl, kind, nofun⟩
  | some d =>
    rw [Option.bind_some]
    cases counted : v.countIn? rates d with
    | none =>
      refine .inr ⟨p, rfl, kind, ?_⟩
      rintro _ ⟨⟩ m other
      cases counted.symm.trans (countIn?_eq_some_iff.mpr other)
    | some m => exact .inl ⟨d, m, rfl, rfl, countIn?_eq_some_iff.mp counted⟩

theorem convertTo_eq_amount_iff (valid : v.isError = false) :
    v.convertTo rates name = .amount m d ↔ v.target? name = some d ∧ v.CountedIn rates d m := by
  rcases convertTo_outcome rates name valid with ⟨d', m', converted, target, counted⟩ |
    ⟨p, converted, -, uncounted⟩
  · rw [converted, target, Value.amount.injEq]
    constructor
    · rintro ⟨rfl, rfl⟩
      exact ⟨rfl, counted⟩
    · rintro ⟨same, again⟩
      cases same
      exact ⟨counted.unique again, rfl⟩
  · rw [converted]
    exact ⟨nofun, fun ⟨target, counted⟩ => (uncounted d target m counted).elim⟩

end Value

/-! ## The law -/

/-- The law holds of a conversion exactly if its result is finite. -/
theorem conversionLaw_iff (valid : v.isError = false) :
    ConversionLaw rates name v (v.convertTo rates name) ↔
      (v.convertTo rates name).isFinite = true := by
  rcases convertTo_outcome rates name valid with ⟨d, m, converted, target, counted⟩ |
    ⟨p, converted, kind, uncounted⟩
  · rw [converted]
    constructor
    · intro law
      exact law.outcome.elim And.right nofun
    · intro finite
      refine ⟨.inl ⟨rfl, finite⟩, fun _ => ⟨d, target, rfl⟩, ?_, fun number _ => ?_⟩
      · exact iff_of_true rfl ⟨d, m, target, counted, finite⟩
      · exact counted.unique (.number number)
  · rw [converted]
    refine iff_of_true ⟨.inr rfl, nofun, iff_of_false nofun ?_, nofun⟩ (isFinite_error p)
    rintro ⟨d, m, target, counted, -⟩
    exact uncounted d target m counted

end

/-- A conversion of a value without a problem has an amount of what its name stands for: a number
keeps its amount, a unit is converted to one of its quantity, and what has a rate is multiplied by
the rate. In all other cases it is a problem. That is the law of conversions as long as the amount is
finite, and only then. -/
theorem conversion_law (rates : RateTable) (name : String) {v : Value} (valid : v.isError = false) :
    (∀ d m, v.convertTo rates name = .amount m d ↔
      v.target? name = some d ∧ v.CountedIn rates d m) ∧
    ((v.convertTo rates name).isValid = false →
      ∃ p, v.convertTo rates name = .error p ∧ p.kind = .conversion) ∧
    (ConversionLaw rates name v (v.convertTo rates name) ↔
      (v.convertTo rates name).isFinite = true) := by
  refine ⟨fun d m => convertTo_eq_amount_iff valid, fun invalid => ?_, conversionLaw_iff valid⟩
  rcases convertTo_outcome rates name valid with ⟨d, m, converted, -⟩ | ⟨p, converted, kind, -⟩
  · rw [converted] at invalid
    cases invalid
  · exact ⟨p, converted, kind⟩

/-- Five kilometres are 5000 metres. -/
theorem conversion_law_exLength :
    let length := Value.amount 5 (.unit .kilometer)
    length.isError = false ∧ length.convertTo [] "m" = .amount 5000 (.unit .meter) ∧
      ConversionLaw [] "m" length (.amount 5000 (.unit .meter)) := by
  intro length
  have converted : length.convertTo [] "m" = .amount 5000 (.unit .meter) := by decide +kernel
  have finite : (length.convertTo [] "m").isFinite = true := by decide +kernel
  refine ⟨rfl, converted, ?_⟩
  rw [← converted]
  exact (conversion_law [] "m" (v := length) rfl).2.2.mpr finite

/-- The greatest amounts of kilometres are infinite amounts of millimetres. -/
theorem conversionLaw_exOverflow :
    let length := Value.amount 1e308 (.unit .kilometer)
    (length.isError = false ∧ length.isFinite = true) ∧
      length.convertTo [] "mm" = .amount (1 / 0) (.unit .millimeter) ∧
      ¬ConversionLaw [] "mm" length (length.convertTo [] "mm") := by
  intro length
  have finite : length.isFinite = true := by decide +kernel
  have converted : length.convertTo [] "mm" = .amount (1 / 0) (.unit .millimeter) := by
    decide +kernel
  refine ⟨⟨rfl, finite⟩, converted, fun law => ?_⟩
  rw [converted] at law
  rcases law.outcome with ⟨-, finite⟩ | problem
  · exact absurd finite (by decide +kernel)
  · cases problem

end LineCalc
