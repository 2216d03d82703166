import LineCalc.Proofs.Decimal.HalfAway
import LineCalc.Proofs.Evaluation.Finite
import LineCalc.Proofs.Evaluation.Stop

/-!
# The rounding function

An amount is rounded to as many decimals as the second argument says, or to tens, hundreds and so on
where that is negative. Decimal arithmetic has a highest place to round to. From far above it the
amount stays as it is, as it does where there would be too many digits; but between the highest place
and those far ones there is no such answer, and the evaluation stops.

Results:
1. `integerPart_of_finite`: the places to round to, from the second argument.
2. `roundTo_outcome`: what a number is rounded to, or that it is not.
3. `round_law`: the function rounds half away from zero at exactly the other places.
-/

namespace LineCalc

open Decimal

variable {x places : Float} {k : Int}

/-- What a rounded number should come to: the number rounded half away from zero at a place, or a
problem if that is not finite. -/
def RoundingLaw (x : Float) (k : Int) (result : Except Fault Value) : Prop :=
  ∃ q n y, RoundedHalfAway x k q n y ∧
    result = .ok (if y.isFinite then .number y else .error .invalidResult)

/-- The places that are counted by a double: it is cut off toward zero. -/
def placesOf (x : Float) : ℤ := towardZero (exactValue x)

theorem integerPart_of_finite (finite : places.isFinite = true) :
    integerPart places = .ok (placesOf places) := by
  rw [← binary?_isSome] at finite
  obtain ⟨b, exact⟩ := Option.isSome_iff_exists.mp finite
  rw [integerPart_ok_iff, truncate?, exact, Option.map_some, placesOf, exactValue_of_binary? exact,
    truncate_eq]

theorem placesOf_eq (finite : places.isFinite = true) (whole : integerPart places = .ok k) :
    placesOf places = k :=
  Except.ok.inj ((integerPart_of_finite finite).symm.trans whole)

theorem roundTo_outcome (finite : x.isFinite = true) (counted : places.isFinite = true) :
    (-2000054 ≤ placesOf places ∧ placesOf places < -999999) ∧
        roundTo x places = .error .roundingUnitTooGreat ∨
      ¬(-2000054 ≤ placesOf places ∧ placesOf places < -999999) ∧
        RoundingLaw x (placesOf places) (roundTo x places) := by
  rw [← unitIsTooGreat_iff]
  have whole := integerPart_of_finite counted
  cases high : unitIsTooGreat (placesOf places) with
  | true =>
    refine .inl ⟨rfl, ?_⟩
    rw [roundTo, whole]
    simp only [bind, Except.bind, roundHalfAway?, high, if_pos]
    rfl
  | false =>
    obtain ⟨q, n, y, rounded, law⟩ := roundHalfAway?_rounded finite high
    refine .inr ⟨Bool.false_ne_true, q, n, y, law, ?_⟩
    rw [roundTo, whole]
    simp only [bind, Except.bind, rounded]
    rfl

/-- A call with two arguments that have values is the function applied to these. -/
theorem eval_round {s : Scope} {function : String} {a b : Expr} {v w : Value}
    (named : Text.lower function = "round") (left : a.Yields s v) (right : b.Yields s w) :
    (Expr.call function [a, b]).eval s = roundTo v.magnitude w.magnitude := by
  have args : evalArgs s [a, b] = .ok (.ok [v.asOperand, w.asOperand]) := by
    rw [evalArgs_cons_of_yields left, evalArgs_cons_of_yields right, evalArgs]
    rfl
  have known : Builtin.ofName? "round" = some .round := by decide
  rw [Expr.eval, args]
  simp only [bind, Except.bind, named, known]
  rw [Builtin.apply, Value.magnitude_asOperand, Value.magnitude_asOperand]

/-- A finite amount is rounded half away from zero, to as many decimals as a finite second argument
has units, cut off toward zero: to the nearest multiple of the place, or not at all if the multiple
would have more than 28 digits or the place is higher than `10^999999`. That is so exactly if the
place is not one from `10^1000000` to `10^2000054`; there the call has no value. -/
theorem round_law (s : Scope) {function : String} {a b : Expr} {v w : Value}
    (named : Text.lower function = "round") (left : a.Yields s v) (right : b.Yields s w)
    (finite : v.isFinite = true) (counted : w.isFinite = true) :
    let k := placesOf w.magnitude
    let result := (Expr.call function [a, b]).eval s
    (RoundingLaw v.magnitude k result ↔ ¬(-2000054 ≤ k ∧ k ≤ -1000000)) ∧
      (-2000054 ≤ k ∧ k ≤ -1000000 → result = .error .roundingUnitTooGreat) := by
  intro k result
  have value : result = roundTo v.magnitude w.magnitude := eval_round named left right
  have bound : k < -999999 ↔ k ≤ -1000000 := by omega
  rw [value, ← bound]
  rcases roundTo_outcome finite counted with ⟨high, none⟩ | ⟨low, law⟩
  · rw [none]
    refine ⟨iff_of_false ?_ (not_not.mpr high), fun _ => rfl⟩
    rintro ⟨q, n, y, -, result⟩
    cases result
  · exact ⟨iff_of_true law low, fun high => absurd high low⟩

theorem yields_literal (s : Scope) (x : Float) (raw : String) :
    (Expr.literal x .plain raw).Yields s (.number x) :=
  ⟨by rw [Expr.eval]; rfl, rfl⟩

/-- A half cent is rounded up: the text decides, for the double lies below the half. -/
theorem round_law_exCents :
    let s := ({} : Session).scope []
    let amount := Expr.literal 2.675 .plain "2.675"
    let places := Expr.literal 2.9 .plain "2.9"
    (Text.lower "Round" = "round" ∧ amount.Yields s (.number 2.675) ∧
      places.Yields s (.number 2.9) ∧ (Value.number 2.675).isFinite = true ∧
      (Value.number 2.9).isFinite = true) ∧
    placesOf 2.9 = 2 ∧
    (Expr.call "Round" [amount, places]).eval s = .ok (.number 2.68) ∧
    RoundingLaw 2.675 2 (.ok (.number 2.68)) := by
  intro s amount places
  have named : Text.lower "Round" = "round" := by decide +kernel
  have finite : (Value.number 2.675).isFinite = true := by decide +kernel
  have counted : (Value.number 2.9).isFinite = true := by decide +kernel
  have two : placesOf 2.9 = 2 := placesOf_eq counted (eq_ok_of_toOption (by decide +kernel))
  have value : (Expr.call "Round" [amount, places]).eval s = .ok (.number 2.68) := by
    rw [eval_round named (yields_literal s _ _) (yields_literal s _ _)]
    exact eq_ok_of_toOption (by decide +kernel)
  refine ⟨⟨named, yields_literal s _ _, yields_literal s _ _, finite, counted⟩, two, value, ?_⟩
  have law := (round_law s named (yields_literal s 2.675 "2.675") (yields_literal s 2.9 "2.9")
    finite counted).1.mpr (by show ¬(-2000054 ≤ placesOf 2.9 ∧ placesOf 2.9 ≤ -1000000); omega)
  rw [← two, ← value]
  exact law

/-- One is not rounded to a multiple of `10^1000000`, and does not stay as it is. -/
theorem roundingLaw_exMillion :
    let s := ({} : Session).scope []
    let call := Expr.call "round" [.literal 1 .plain "1", .literal (-1000000) .plain "-1000000"]
    ((Value.number 1).isFinite = true ∧ (Value.number (-1000000)).isFinite = true ∧
      placesOf (-1000000) = -1000000) ∧
    call.eval s = .error .roundingUnitTooGreat ∧ ¬RoundingLaw 1 (-1000000) (call.eval s) := by
  intro s call
  have counted : (Value.number (-1000000)).isFinite = true := by decide +kernel
  have million : placesOf (-1000000) = -1000000 :=
    placesOf_eq counted (eq_ok_of_toOption (by decide +kernel))
  have stopped : call.eval s = .error .roundingUnitTooGreat := by
    rw [eval_round (by decide +kernel) (yields_literal s _ _) (yields_literal s _ _)]
    show roundTo 1 (-1000000) = _
    rcases roundTo_outcome (x := 1) (by decide +kernel) counted with ⟨-, none⟩ | ⟨low, -⟩
    · exact none
    · rw [show (Value.number (-1000000)).magnitude = -1000000 from rfl, million] at low
      omega
  refine ⟨⟨by decide +kernel, counted, million⟩, stopped, ?_⟩
  rw [stopped]
  rintro ⟨q, n, y, -, result⟩
  cases result

end LineCalc
