import LineCalc.Proofs.Decimal.Quotient
import LineCalc.Proofs.Evaluation.Typing
import LineCalc.Proofs.Evaluation.Finite

/-!
# Sums and averages

A sum takes the exact total of its arguments, rounds it once, and is an amount of what the first
argument is an amount of; an average divides that by the number of the arguments. If the rounded total
is infinite then both are a problem. So they should be for all arguments; but the expansion that is
followed along with the total can overflow, and then the evaluation stops instead, also where the
total itself is in range.

Results:
1. `sumOf_outcome`: a sum of numbers is their total, rounded once, unless the expansion overflows.
2. `sum_law`: sums and averages are what they should be exactly if the expansion does not overflow.
-/

namespace LineCalc

open Decimal

/-! ## What the law says -/

/-- The exact total of some values. -/
def exactTotal (args : List Value) : ℚ := (args.map fun v => exactValue v.magnitude).sum

/-- The expansion of some values goes through. -/
def Summable (args : List Value) : Prop := (expansion? (args.map (·.magnitude))).isSome = true

/-- What an aggregate of a total should come to: the total is rounded once, and the result is what
`share` makes of that, an amount of the same type as the first argument, or a problem if the rounded
total is infinite. -/
def TotalLaw (share : Float → Float) (first : Value) (rest : List Value)
    (result : Except Fault Value) : Prop :=
  ∃ x u, Rounds (exactTotal (first :: rest)) x ∧ result = .ok u ∧
    if x.isFinite then u.type = first.type ∧ u.magnitude = share x else u.isError = true

section

variable {share : Float → Float} {first : Value} {rest args : List Value} {name : String}

/-! ## Totals -/

theorem sumOf_outcome (finite : ∀ v ∈ args, v.isFinite = true) :
    ¬Summable args ∧ sumOf (args.map (·.magnitude)) = .error .sumOverflow ∨
      Summable args ∧ ∃ x, sumOf (args.map (·.magnitude)) = .ok x ∧ Rounds (exactTotal args) x := by
  have total : ((args.map (·.magnitude)).map exactValue).sum = exactTotal args := by
    rw [List.map_map]
    rfl
  rcases exactSum_of_finite (List.forall_mem_map.mpr finite) with
    ⟨overflow, none⟩ | ⟨through, x, sum, rounds⟩
  · refine .inl ⟨?_, by rw [sumOf, none]⟩
    rw [Summable, overflow]
    nofun
  · exact .inr ⟨through, x, by rw [sumOf, sum], total ▸ rounds⟩

/-- A checked amount made of a sum is what it should be, exactly if there is a sum. What is made of
it must be finite where the sum is. -/
theorem totalLaw_iff (valid : first.isValid = true)
    (finite : ∀ v ∈ first :: rest, v.isFinite = true)
    (share_finite : ∀ x, (share x).isFinite = x.isFinite) :
    TotalLaw share first rest ((sumOf ((first :: rest).map (·.magnitude))).map fun x =>
        (first.withAmount (share x)).checked) ↔ Summable (first :: rest) := by
  rcases sumOf_outcome finite with ⟨overflow, none⟩ | ⟨through, x, sum, rounds⟩
  · rw [none]
    refine iff_of_false ?_ overflow
    rintro ⟨x, u, -, result, -⟩
    cases result
  · rw [sum]
    refine iff_of_true ⟨x, _, rounds, rfl, ?_⟩ through
    cases first with
    | empty | error => cases valid
    | amount n d =>
      dsimp only
      rw [Value.withAmount_amount, Value.checked_amount, share_finite]
      split
      · exact ⟨rfl, rfl⟩
      · rfl

end

/-- A sum of finite arguments, the first one an amount, is their exact total, rounded once, as an
amount of what the first is an amount of, and an average is that divided by their number; where the
rounded total is infinite, they are a problem. That is so exactly if the expansion of the total does
not overflow. If it does then there is no value. A first argument that is nothing stays nothing;
calls have a zero in its place. -/
theorem sum_law (name : String) {first : Value} {rest : List Value} (valid : first.isError = false)
    (finite : ∀ v ∈ first :: rest, v.isFinite = true) :
    let args := first :: rest
    let sum := Aggregate.sum.apply name args
    let average := Aggregate.average.apply name args
    (first.isEmpty = false →
      (TotalLaw (fun x => x) first rest sum ↔ Summable args) ∧
      (TotalLaw (fun x => x / args.length.toFloat) first rest average ↔ Summable args)) ∧
    (first.isEmpty = true → Summable args → sum = .ok .empty ∧ average = .ok .empty) ∧
    (¬Summable args → sum = .error .sumOverflow ∧ average = .error .sumOverflow) := by
  intro args sum average
  refine ⟨fun some => ?_, fun nothing through => ?_, fun overflow => ?_⟩
  · have valid : first.isValid = true := by
      cases first with
      | empty => cases some
      | error p => cases valid
      | amount n d => rfl
    refine ⟨totalLaw_iff valid finite fun x => rfl, totalLaw_iff valid finite fun x => ?_⟩
    exact isFinite_div_count (Nat.succ_pos rest.length)
  · obtain ⟨-, x, total, -⟩ := (sumOf_outcome finite).resolve_left fun h => h.1 through
    cases first with
    | error | amount => cases nothing
    | empty =>
      have checked : Value.empty.checked = .empty := if_pos Value.isFinite_empty
      constructor
      · exact (congrArg (Except.map _) total).trans (congrArg Except.ok checked)
      · exact (congrArg (Except.map _) total).trans (congrArg Except.ok checked)
  · have none := ((sumOf_outcome finite).resolve_right fun h => overflow h.1).2
    constructor
    · exact congrArg (Except.map _) none
    · exact congrArg (Except.map _) none

/-- Three tenths, rounded once: added up one by one they would be a little more. -/
theorem sum_law_exTenths :
    let args := [Value.number 0.1, .number 0.2, .number 0.3]
    ((Value.number 0.1).isError = false ∧ (Value.number 0.1).isEmpty = false) ∧
      (∀ v ∈ args, v.isFinite = true) ∧ Summable args ∧
      Aggregate.sum.apply "sum" args = .ok (.number 0.6) ∧
      TotalLaw (fun x => x) (.number 0.1) [.number 0.2, .number 0.3] (.ok (.number 0.6)) := by
  intro args
  have finite : ∀ v ∈ args, v.isFinite = true := by decide +kernel
  have through : Summable args := by
    unfold Summable
    decide +kernel
  have sum : Aggregate.sum.apply "sum" args = .ok (.number 0.6) :=
    eq_ok_of_toOption (by decide +kernel)
  refine ⟨⟨rfl, rfl⟩, finite, through, sum, ?_⟩
  rw [← sum]
  exact ((sum_law "sum" rfl finite).1 rfl).1.mpr through

/-- The total of these three is one of them. The first two overflow together. -/
theorem totalLaw_exOverflow :
    let first := Value.number 1e308
    let rest := [Value.number 1e308, .number (-1e308)]
    (first.isValid = true ∧ ∀ v ∈ first :: rest, v.isFinite = true) ∧
      Rounds (exactTotal (first :: rest)) 1e308 ∧
      Aggregate.sum.apply "sum" (first :: rest) = .error .sumOverflow ∧
      ¬TotalLaw (fun x => x) first rest (Aggregate.sum.apply "sum" (first :: rest)) := by
  intro first rest
  have finite : ∀ v ∈ first :: rest, v.isFinite = true := by decide +kernel
  have overflow : ¬Summable (first :: rest) := by
    unfold Summable
    decide +kernel
  have none := ((sumOf_outcome finite).resolve_right fun h => overflow h.1).2
  have sum : Aggregate.sum.apply "sum" (first :: rest) = .error .sumOverflow :=
    congrArg (Except.map _) none
  refine ⟨⟨rfl, finite⟩, ?_, sum, ?_⟩
  · have total : exactTotal (first :: rest) = exactValue 1e308 := by
      have opposite : exactValue (-1e308) = -exactValue 1e308 := exactValue_neg 1e308
      simp only [exactTotal, first, rest, List.map_cons, List.map_nil, List.sum_cons, List.sum_nil,
        Value.number, Value.magnitude_amount, opposite]
      ring
    rw [total]
    exact rounds_exactValue (by decide +kernel)
  · rw [sum]
    rintro ⟨x, u, -, result, -⟩
    cases result

end LineCalc
