import LineCalc.Decimal.Binary

/-!
# Exactly rounded sums

A list of doubles is added up as exact numbers and rounded once. The running sum is also followed
as an expansion, a list of doubles of rising magnitude that do not overlap and together are exact:
if a step of it leaves the range of the doubles then the sum is refused, even where the total would
be in range again.
-/

namespace LineCalc.Decimal

/-- Adds a number to an expansion; nothing if a step overflows. -/
def absorb (x : Float) : List Float → Option (List Float)
  | [] => some (if x == 0 then [] else [x])
  | y :: ys =>
    let (large, small) := if x.abs < y.abs then (y, x) else (x, y)
    let high := large + small
    let low := small - (high - large)
    if high.isFinite then
      (absorb high ys).map fun rest => if low == 0 then rest else low :: rest
    else none

/-- Why a list has no sum. -/
inductive SumProblem
  | overflow
  | oppositeInfinities
deriving DecidableEq, Repr

/-- A running sum: the expansion of the finite terms since the last infinite one, their exact sum,
and the sums of the terms that are no numbers. -/
structure RunningSum where
  expansion : List Float := []
  exact : Binary := ⟨false, 0, 0⟩
  infinities : Float := 0
  specials : Float := 0

/-- One more term. -/
def RunningSum.add (s : RunningSum) (x : Float) : Except SumProblem RunningSum :=
  match binary? x with
  | some b =>
    match absorb x s.expansion with
    | some expansion => .ok { s with expansion, exact := s.exact.add b }
    | none => .error .overflow
  | none =>
    .ok { s with
      expansion := []
      infinities := if x.isNaN then s.infinities else s.infinities + x
      specials := s.specials + x }

/-- The value of a running sum. -/
def RunningSum.value (s : RunningSum) : Except SumProblem Float :=
  if s.specials == 0 then .ok s.exact.toFloat
  else if s.infinities.isNaN then .error .oppositeInfinities
  else .ok s.specials

/-- The sum of a list, rounded once. -/
def exactSum (xs : List Float) : Except SumProblem Float := do
  let s ← xs.foldlM RunningSum.add {}
  s.value

end LineCalc.Decimal
