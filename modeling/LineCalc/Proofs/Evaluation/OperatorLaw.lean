import LineCalc.Proofs.Catalog.MeasureUnit
import LineCalc.Proofs.Decimal.Double
import LineCalc.Proofs.Evaluation.Finite
import LineCalc.Proofs.Evaluation.TypeSoundness
import LineCalc.Proofs.Session.KnownCodes

/-!
# The law of the operators

An operator tries several things in a fixed order: a percentage on the right, a plain number on one
side, two values of one type, two units, two rated values. What comes out can be said without the
order. Each kind of problem has its own condition on the operands, no two of which hold together;
where none holds, the result has one amount, and a type that follows from those of the operands.

Results:
1. `OperatorLaw`: what an operator makes of two amounts, problem by problem.
2. `operatorLaw_combine`: the law for sums of amounts that are no percentages.
3. `operator_law`: the law for all operators and all values.
-/

namespace LineCalc

/-! ## What the law says -/

namespace BinaryOp

/-- The operator is that of sums or that of differences. -/
def isSum : BinaryOp → Bool
  | .add | .sub => true
  | .mul | .div | .mod | .pow => false

/-- What an operator makes of two numbers, if anything. -/
def ofNumbers? (op : BinaryOp) (x y : Float) : Option Float :=
  match op with
  | .add => some (x + y)
  | .sub => some (x - y)
  | .mul => some (x * y)
  | .div => some (x / y)
  | .mod => Decimal.remainder? x y
  | .pow => some (x ^ y)

end BinaryOp

/-- There is a rate from a code to what has a rate under another. -/
def RateTable.Reaches (t : RateTable) (source target : String) : Prop :=
  ∃ d, Denomination.ofRateCode? target = some d ∧ (t.rate? source d.code).isSome = true

namespace Value

/-- The kind of the problem that a value is. -/
def problemKind? : Value → Option ProblemKind
  | error p => some p.kind
  | empty | amount .. => none

/-- The unit that the value is an amount of. -/
def unit? : Value → Option MeasureUnit
  | amount _ (.unit u) => some u
  | _ => none

/-- The values are of one type, or units of one quantity, or both converted by rates. -/
def Combinable (v w : Value) : Prop :=
  v.type = w.type ∨
    (∃ u x, v.unit? = some u ∧ w.unit? = some x ∧ u.quantity = x.quantity) ∨
    v.isRated = true ∧ w.isRated = true

/-- The lower ranked of two values, the second if they rank the same. -/
def lower (v w : Value) : Value := if w.rank > v.rank then v else w

/-- The higher ranked of two values, the first if they rank the same. -/
def higher (v w : Value) : Value := if w.rank > v.rank then w else v

/-- The amount of a value, counted in what another is an amount of. -/
def amountIn? (rates : RateTable) (v w : Value) : Option Float :=
  if v.combinesWith w then some v.magnitude
  else match v.unit?, w.unit? with
    | some u, some x => u.convert v.magnitude x
    | _, _ => if w.isRated then (rates.convertValue? v w.code).map (·.magnitude) else none

/-- The amount of a result before it is checked. Percentages on the right of a sum count as shares,
and of other summands the lower ranked is counted in what the other is an amount of. -/
def resultAmount? (rates : RateTable) (op : BinaryOp) (v w : Value) : Option Float :=
  if op.isSum then
    if w.kind = .percentage then some (v.magnitude * shareAfter op w.magnitude)
    else if w.rank > v.rank then (v.amountIn? rates w).bind fun x => op.ofNumbers? x w.magnitude
    else (w.amountIn? rates v).bind fun y => op.ofNumbers? v.magnitude y
  else op.ofNumbers? v.magnitude w.magnitude

/-- The type of a result that is an amount. -/
def resultType (op : BinaryOp) (v w : Value) : ValueType :=
  if op = .pow then .number
  else if op.isSum ∧ w.kind = .percentage then v.type
  else if v.isNumber then w.type
  else if w.isNumber then v.type
  else if op.isSum then (v.higher w).type
  else .number

/-- A quotient or remainder by zero. -/
def DividesByZero (op : BinaryOp) (w : Value) : Prop :=
  (op = .div ∨ op = .mod) ∧ (w.magnitude == 0) = true

/-- A sum or difference of two things. -/
def Uncombinable (op : BinaryOp) (v w : Value) : Prop :=
  op.isSum = true ∧ w.kind ≠ .percentage ∧ v.isNumber = false ∧ w.isNumber = false ∧
    ¬v.Combinable w

/-- A sum or difference of two rated things without a rate from the lower ranked to the other. -/
def Unconvertible (rates : RateTable) (op : BinaryOp) (v w : Value) : Prop :=
  op.isSum = true ∧ v.isRated = true ∧ w.isRated = true ∧ v.type ≠ w.type ∧
    ¬rates.Reaches (v.lower w).code (v.higher w).code

end Value

open Value

/-- What an operator makes of the amounts `v` and `w`, if the result is `u`. -/
structure OperatorLaw (rates : RateTable) (op : BinaryOp) (v w u : Value) : Prop where
  outcome : u.isValid = true ∧ u.magnitude.isFinite = true ∨ u.isError = true
  kinds : ∀ k, u.problemKind? = some k → k ∈ [.division, .typing, .conversion, .evaluation]
  division : u.problemKind? = some .division ↔ DividesByZero op w
  typing : u.problemKind? = some .typing ↔ Uncombinable op v w
  conversion : u.problemKind? = some .conversion ↔ Unconvertible rates op v w
  evaluation : u.problemKind? = some .evaluation ↔
    ¬DividesByZero op w ∧ ∃ x, resultAmount? rates op v w = some x ∧ x.isFinite = false
  type : u.isValid = true → u.type = resultType op v w
  amount : u.isValid = true → resultAmount? rates op v w = some u.magnitude

section

variable {rates : RateTable} {op : BinaryOp} {v w : Value} {x : Float} {d : Denomination}
  {p : Problem}

/-! ## Amounts in one type -/

namespace Value

theorem type_eq_iff : v.type = w.type ↔ v.kind = w.kind ∧ v.code = w.code := by
  rw [type, type, ValueType.mk.injEq]

theorem combinesWith_iff :
    v.combinesWith w = true ↔ v.isNumber = true ∨ w.isNumber = true ∨ v.type = w.type := by
  rw [combinesWith, Bool.or_eq_true, Bool.or_eq_true, Bool.and_eq_true, beq_iff_eq, beq_iff_eq,
    type_eq_iff, or_assoc]

theorem combinesWith_comm (v w : Value) : v.combinesWith w = w.combinesWith v := by
  rw [Bool.eq_iff_iff, combinesWith_iff, combinesWith_iff, @eq_comm _ v.type, or_left_comm]

theorem Combinable.symm (h : v.Combinable w) : w.Combinable v := by
  rcases h with same | ⟨u, x, left, right, same⟩ | ⟨left, right⟩
  · exact .inl same.symm
  · exact .inr (.inl ⟨x, u, right, left, same.symm⟩)
  · exact .inr (.inr ⟨right, left⟩)

theorem unit?_eq_some {u : MeasureUnit} : v.unit? = some u ↔ ∃ n, v = .amount n (.unit u) := by
  constructor
  · intro h
    unfold unit? at h
    split at h <;> cases h
    exact ⟨_, rfl⟩
  · rintro ⟨n, rfl⟩
    rfl

theorem unit?_of_rated (rated : v.isRated = true) : v.unit? = none := by
  cases v with
  | empty | error => rfl
  | amount n d =>
    cases d with
    | unit u => cases rated
    | plain | percent | currency | metal | crypto => rfl

/-- Values of different types, not both units and not both rated, cannot be combined. -/
theorem not_combinable (differ : v.type ≠ w.type)
    (noUnits : ∀ n u m x, v = .amount n (.unit u) → w = .amount m (.unit x) → False)
    (unrated : (v.isRated && w.isRated) = false) : ¬v.Combinable w := by
  rintro (same | ⟨u, x, left, right, -⟩ | ⟨left, right⟩)
  · exact differ same
  · obtain ⟨n, left⟩ := unit?_eq_some.mp left
    obtain ⟨m, right⟩ := unit?_eq_some.mp right
    exact noUnits n u m x left right
  · rw [left, right] at unrated
    cases unrated

theorem amountIn?_of_combinesWith (h : v.combinesWith w = true) :
    v.amountIn? rates w = some v.magnitude := if_pos h

theorem amountIn?_of_units {u x : MeasureUnit} (apart : v.combinesWith w = false)
    (left : v.unit? = some u) (right : w.unit? = some x) :
    v.amountIn? rates w = u.convert v.magnitude x := by
  rw [amountIn?, apart, left, right]
  rfl

theorem amountIn?_of_rated (apart : v.combinesWith w = false) (left : v.isRated = true)
    (right : w.isRated = true) :
    v.amountIn? rates w = (rates.convertValue? v w.code).map (·.magnitude) := by
  rw [amountIn?, apart, unit?_of_rated left, right]
  rfl

theorem convertValue?_of_unrated (unrated : v.isRated = false) (code : String) :
    rates.convertValue? v code = none := by
  rw [RateTable.convertValue?, unrated]
  rfl

theorem amountIn?_of_not_combinable (left : v.isNumber = false) (right : w.isNumber = false)
    (h : ¬v.Combinable w) : v.amountIn? rates w = none := by
  have apart : ¬v.combinesWith w = true := by
    rw [combinesWith_iff, left, right]
    exact fun same => same.elim nofun fun same => same.elim nofun fun same => h (.inl same)
  rw [amountIn?, if_neg apart]
  split
  · next u x left right =>
    exact MeasureUnit.convert_eq_none_iff.mpr fun same => h (.inr (.inl ⟨u, x, left, right, same⟩))
  · refine ite_eq_right_iff.mpr fun rated => ?_
    have unrated : v.isRated = false :=
      Bool.eq_false_iff.mpr fun both => h (.inr (.inr ⟨both, rated⟩))
    rw [convertValue?_of_unrated unrated]
    rfl

/-- Where there is no rate, nothing is converted. -/
theorem convertValue?_isSome (rated : v.isRated = true) {code : String} :
    (rates.convertValue? v code).isSome = true ↔ rates.Reaches v.code code := by
  rw [Option.isSome_iff_exists]
  constructor
  · rintro ⟨u, converted⟩
    obtain ⟨-, d, found, n, amount, -⟩ := RateTable.convertValue?_eq_some.mp converted
    obtain ⟨r, rate, -⟩ := Option.map_eq_some_iff.mp amount
    exact ⟨d, found, Option.isSome_iff_exists.mpr ⟨r, rate⟩⟩
  · rintro ⟨d, found, reached⟩
    obtain ⟨r, rate⟩ := Option.isSome_iff_exists.mp reached
    refine ⟨.amount (v.magnitude * r) d,
      RateTable.convertValue?_eq_some.mpr ⟨rated, d, found, v.magnitude * r, ?_, rfl⟩⟩
    rw [RateTable.convert?, rate]
    rfl

theorem convertValue?_eq_none_iff (rated : v.isRated = true) {code : String} :
    rates.convertValue? v code = none ↔ ¬rates.Reaches v.code code := by
  rw [← convertValue?_isSome rated, Option.not_isSome_iff_eq_none]

theorem kind_of_rated (rated : v.isRated = true) : v.kind ≠ .number ∧ v.kind ≠ .percentage := by
  rw [isRated_eq] at rated
  constructor <;> intro kind <;> rw [kind] at rated <;> cases rated

theorem isNumber_of_rated (rated : v.isRated = true) : v.isNumber = false :=
  beq_eq_false_iff_ne.mpr (kind_of_rated rated).1

theorem combinesWith_of_rated (left : v.isRated = true) (right : w.isRated = true)
    (apart : v.type ≠ w.type) : v.combinesWith w = false := by
  refine Bool.eq_false_iff.mpr fun h => ?_
  rw [combinesWith_iff, isNumber_of_rated left, isNumber_of_rated right] at h
  exact h.elim nofun fun h => h.elim nofun apart

/-! ## Amounts of results -/

section

variable (sum : op.isSum = true) (share : w.kind ≠ .percentage)
include sum share

theorem resultAmount?_of_sum : resultAmount? rates op v w =
    if w.rank > v.rank then (v.amountIn? rates w).bind fun x => op.ofNumbers? x w.magnitude
    else (w.amountIn? rates v).bind fun y => op.ofNumbers? v.magnitude y := by
  rw [resultAmount?, if_pos sum, if_neg share]

theorem resultAmount?_of_combinesWith (h : v.combinesWith w = true) :
    resultAmount? rates op v w = op.ofNumbers? v.magnitude w.magnitude := by
  rw [resultAmount?_of_sum sum share, amountIn?_of_combinesWith h,
    amountIn?_of_combinesWith ((combinesWith_comm w v).trans h)]
  exact ite_self _

end

theorem resultAmount?_of_share (sum : op.isSum = true) (share : w.kind = .percentage) :
    resultAmount? rates op v w = some (v.magnitude * shareAfter op w.magnitude) := by
  rw [resultAmount?, if_pos sum, if_pos share]

theorem resultAmount?_of_uncombinable (h : Uncombinable op v w) :
    resultAmount? rates op v w = none := by
  obtain ⟨sum, share, left, right, apart⟩ := h
  rw [resultAmount?_of_sum sum share, amountIn?_of_not_combinable left right apart,
    amountIn?_of_not_combinable right left fun h => apart h.symm]
  exact ite_self _

theorem resultAmount?_of_unconvertible (h : Unconvertible rates op v w) :
    resultAmount? rates op v w = none := by
  obtain ⟨sum, left, right, differ, unreached⟩ := h
  have apart := combinesWith_of_rated left right differ
  rw [resultAmount?_of_sum sum (kind_of_rated right).2]
  unfold lower higher at unreached
  split
  · next rank =>
    rw [if_pos rank, if_pos rank] at unreached
    rw [amountIn?_of_rated apart left right, (convertValue?_eq_none_iff left).mpr unreached]
    rfl
  · next rank =>
    rw [if_neg rank, if_neg rank] at unreached
    rw [amountIn?_of_rated ((combinesWith_comm w v).trans apart) right left,
      (convertValue?_eq_none_iff right).mpr unreached]
    rfl

theorem isSum_of_dividesByZero (h : DividesByZero op w) : op.isSum = false := by
  rcases h.1 with rfl | rfl <;> rfl

theorem not_dividesByZero (noQuotient : op ≠ .div) (noRemainder : op ≠ .mod) :
    ¬DividesByZero op w := fun zero => zero.1.elim noQuotient noRemainder

theorem not_dividesByZero_of_isSum (sum : op.isSum = true) : ¬DividesByZero op w := fun zero => by
  rw [isSum_of_dividesByZero zero] at sum
  cases sum

/-- Where a result has an amount, its operands can be combined. -/
theorem not_uncombinable (amount : resultAmount? rates op v w = some x) :
    ¬Uncombinable op v w := fun h => by
  rw [resultAmount?_of_uncombinable h] at amount
  cases amount

theorem not_unconvertible (amount : resultAmount? rates op v w = some x) :
    ¬Unconvertible rates op v w := fun h => by
  rw [resultAmount?_of_unconvertible h] at amount
  cases amount

end Value

/-! ## Kinds of results -/

namespace OperatorLaw

theorem of_dividesByZero (h : DividesByZero op w) (kind : p.kind = .division) :
    OperatorLaw rates op v w (.error p) := by
  have noSum := isSum_of_dividesByZero h
  constructor <;> simp [problemKind?, kind, h, noSum, Uncombinable, Unconvertible, isError, isValid]

theorem of_uncombinable (h : Uncombinable op v w) (kind : p.kind = .typing) :
    OperatorLaw rates op v w (.error p) := by
  have whole : ¬DividesByZero op w := not_dividesByZero_of_isSum h.1
  have convertible : ¬Unconvertible rates op v w :=
    fun other => h.2.2.2.2 (.inr (.inr ⟨other.2.1, other.2.2.1⟩))
  have nothing : resultAmount? rates op v w = none := resultAmount?_of_uncombinable h
  constructor <;> simp [problemKind?, kind, h, whole, convertible, nothing, isError, isValid]

theorem of_unconvertible (h : Unconvertible rates op v w) (kind : p.kind = .conversion) :
    OperatorLaw rates op v w (.error p) := by
  have whole : ¬DividesByZero op w := not_dividesByZero_of_isSum h.1
  have combinable : ¬Uncombinable op v w :=
    fun other => other.2.2.2.2 (.inr (.inr ⟨h.2.1, h.2.2.1⟩))
  have nothing := resultAmount?_of_unconvertible h
  constructor <;> simp [problemKind?, kind, h, whole, combinable, nothing, isError, isValid]

section

variable (whole : ¬DividesByZero op w) (amount : resultAmount? rates op v w = some x)
include whole amount

theorem of_infinite (infinite : x.isFinite = false) (kind : p.kind = .evaluation) :
    OperatorLaw rates op v w (.error p) := by
  have combinable := not_uncombinable amount
  have convertible := not_unconvertible amount
  constructor <;> simp [problemKind?, kind, whole, combinable, convertible, amount, infinite,
    isError, isValid]

theorem of_finite (finite : x.isFinite = true) (type : d.type = resultType op v w) :
    OperatorLaw rates op v w (.amount x d) := by
  have combinable := not_uncombinable amount
  have convertible := not_unconvertible amount
  constructor <;> simp [problemKind?, whole, combinable, convertible, amount, finite, type, isValid]

theorem of_checked (type : d.type = resultType op v w) :
    OperatorLaw rates op v w (checked (.amount x d)) := by
  unfold checked
  split
  · next finite => exact of_finite whole amount finite type
  · next infinite => exact of_infinite whole amount (Bool.eq_false_iff.mpr infinite) rfl

end

end OperatorLaw

/-! ## Operators -/

namespace Value

theorem higher_of_rank_le (le : w.rank ≤ v.rank) : v.higher w = v := if_neg (Nat.not_lt.mpr le)

theorem higher_of_rank_lt (lt : v.rank < w.rank) : v.higher w = w := if_pos lt

theorem ne_pow_of_isSum (sum : op.isSum = true) : op ≠ .pow := by
  rintro rfl
  cases sum

theorem resultType_of_share (sum : op.isSum = true) (share : w.kind = .percentage) :
    resultType op v w = v.type := by
  rw [resultType, if_neg (ne_pow_of_isSum sum), if_pos ⟨sum, share⟩]

theorem resultType_of_sum (sum : op.isSum = true) (share : w.kind ≠ .percentage) :
    resultType op v w =
      if v.isNumber then w.type else if w.isNumber then v.type else (v.higher w).type := by
  rw [resultType, if_neg (ne_pow_of_isSum sum), if_neg fun h => share h.2, if_pos sum]

end Value

variable {n m : Float} {e : Denomination}

/-- The law for the sum of two amounts of rated things of different types. -/
theorem operatorLaw_combineRated {f : Float → Float → Float} (sum : op.isSum = true)
    (apply : ∀ x y, op.ofNumbers? x y = some (f x y)) (left : (amount n d).isRated = true)
    (right : (amount m e).isRated = true) (differ : d.type ≠ e.type) :
    OperatorLaw rates op (.amount n d) (.amount m e)
      (combineRated rates f (.amount n d) (.amount m e)) := by
  have whole : ¬DividesByZero op (.amount m e) := not_dividesByZero_of_isSum sum
  have share := (kind_of_rated right).2
  have apart := combinesWith_of_rated left right differ
  have number : resultAmount? rates op (.amount n d) (.amount m e) = _ :=
    resultAmount?_of_sum sum share
  have type := resultType_of_sum (v := .amount n d) sum share
  rw [isNumber_of_rated left, isNumber_of_rated right] at type
  unfold combineRated
  split
  · next rank =>
    rw [if_pos rank, amountIn?_of_rated apart left right] at number
    cases converted : rates.convertValue? (.amount n d) (amount m e).code with
    | none =>
      have unreached := (convertValue?_eq_none_iff left).mp converted
      refine .of_unconvertible ⟨sum, left, right, differ, ?_⟩ rfl
      rwa [lower, higher, if_pos rank, if_pos rank]
    | some u =>
      rw [converted] at number
      refine .of_checked whole (number.trans (apply u.magnitude m)) ?_
      rw [type, higher_of_rank_lt rank]
      rfl
  · next rank =>
    rw [if_neg rank, amountIn?_of_rated ((combinesWith_comm _ _).trans apart) right left] at number
    cases converted : rates.convertValue? (.amount m e) (amount n d).code with
    | none =>
      have unreached := (convertValue?_eq_none_iff right).mp converted
      refine .of_unconvertible ⟨sum, left, right, differ, ?_⟩ rfl
      rwa [lower, higher, if_neg rank, if_neg rank]
    | some u =>
      rw [converted] at number
      refine .of_checked whole (number.trans (apply n u.magnitude)) ?_
      rw [type, higher_of_rank_le (Nat.le_of_not_lt rank)]
      rfl

/-- The law for the sum of two amounts of different units. -/
theorem operatorLaw_units {f : Float → Float → Float} (sum : op.isSum = true)
    (apply : ∀ x y, op.ofNumbers? x y = some (f x y)) {u x : MeasureUnit}
    (apart : (amount n (.unit u)).combinesWith (.amount m (.unit x)) = false) :
    OperatorLaw rates op (.amount n (.unit u)) (.amount m (.unit x))
      (match x.convert m u with
        | none => .error (.incompatibleUnits u.code x.code)
        | some y => checked (.amount (f n y) (.unit u))) := by
  have whole : ¬DividesByZero op (.amount m (.unit x)) := not_dividesByZero_of_isSum sum
  have share : (amount m (.unit x)).kind ≠ .percentage := nofun
  have rank : ¬(amount m (.unit x)).rank > (amount n (.unit u)).rank := Nat.lt_irrefl _
  have number : resultAmount? rates op (.amount n (.unit u)) (.amount m (.unit x)) = _ :=
    resultAmount?_of_sum sum share
  rw [if_neg rank, amountIn?_of_units ((combinesWith_comm _ _).trans apart) rfl rfl] at number
  cases converted : x.convert m u with
  | none =>
    refine .of_uncombinable ⟨sum, share, rfl, rfl, ?_⟩ rfl
    rintro (same | ⟨u', x', left, right, same⟩ | ⟨rated, -⟩)
    · rw [combinesWith_iff.mpr (.inr (.inr same))] at apart
      cases apart
    · cases left
      cases right
      exact MeasureUnit.convert_eq_none_iff.mp converted same.symm
    · cases rated
  | some y =>
    rw [magnitude_amount, converted] at number
    refine .of_checked whole (number.trans (apply n y)) ?_
    rw [resultType_of_sum sum share, higher_of_rank_le (Nat.not_lt.mp rank)]
    rfl

/-- The law for sums of amounts, the second of which is no percentage. -/
theorem operatorLaw_combine {f : Float → Float → Float} (sum : op.isSum = true)
    (apply : ∀ x y, op.ofNumbers? x y = some (f x y)) (share : (amount m e).kind ≠ .percentage) :
    OperatorLaw rates op (.amount n d) (.amount m e)
      (combine rates f (.amount n d) (.amount m e)) := by
  have whole : ¬DividesByZero op (.amount m e) := not_dividesByZero_of_isSum sum
  have type := resultType_of_sum (v := .amount n d) sum share
  unfold combine
  split
  · next left =>
    -- A number on the left takes on the type of the right operand, whatever that is.
    have alike : (amount n d).combinesWith (.amount m e) = true := combinesWith_iff.mpr (.inl left)
    rw [if_pos left] at type
    exact .of_checked whole ((resultAmount?_of_combinesWith sum share alike).trans (apply n m))
      type.symm
  next left =>
  rw [if_neg left] at type
  split
  · next same =>
    -- A number on the right ranks lowest, and what is of one type ranks the same.
    have alike : (amount n d).combinesWith (.amount m e) = true :=
      (Bool.or_eq_true _ _ ▸ same).elim (fun h => combinesWith_iff.mpr (.inr (.inl h))) id
    have le : (amount m e).rank ≤ (amount n d).rank := by
      show e.rank ≤ d.rank
      rw [Denomination.rank_eq, Denomination.rank_eq]
      exact rank_le_of_combinesWith (Bool.eq_false_iff.mpr left) same
    rw [higher_of_rank_le le] at type
    exact .of_checked whole ((resultAmount?_of_combinesWith sum share alike).trans (apply n m))
      (type.trans (ite_self _)).symm
  -- From here on the operands are of two types, none of which is that of numbers.
  next apart =>
  rw [Bool.or_eq_true, not_or, Bool.not_eq_true, Bool.not_eq_true] at apart
  rw [if_neg (Bool.eq_false_iff.mp apart.1)] at type
  have differ : (amount n d).type ≠ (amount m e).type := fun same => by
    rw [combinesWith_iff.mpr (.inr (.inr same))] at apart
    cases apart.2
  split
  · next n' u m' x leftUnit rightUnit =>
    cases leftUnit
    cases rightUnit
    exact operatorLaw_units sum apply apart.2
  · next noUnits =>
    split
    · next rated =>
      rw [Bool.and_eq_true] at rated
      exact operatorLaw_combineRated sum apply rated.1 rated.2 differ
    · next unrated =>
      have others := not_combinable differ noUnits (Bool.eq_false_iff.mpr unrated)
      exact .of_uncombinable ⟨sum, share, Bool.eq_false_iff.mpr left, apart.1, others⟩ rfl

theorem operatorLaw_addOrSub (sum : op.isSum = true) :
    OperatorLaw rates op (.amount n d) (.amount m e)
      (addOrSub rates op (.amount n d) (.amount m e)) := by
  have apply (x y : Float) :
      op.ofNumbers? x y = some ((if op == .sub then (· - ·) else (· + ·)) x y) := by
    cases op <;> first | rfl | cases sum
  unfold addOrSub
  split
  · next percent =>
    have share : (amount m e).kind = .percentage := beq_iff_eq.mp percent
    have amount : resultAmount? rates op (.amount n d) (.amount m e) = _ :=
      resultAmount?_of_share sum share
    have type : resultType op (.amount n d) (.amount m e) = d.type := resultType_of_share sum share
    exact .of_checked (not_dividesByZero_of_isSum sum) amount type.symm
  · next percent => exact operatorLaw_combine sum apply fun share => percent (beq_iff_eq.mpr share)

/-- The law for products, quotients and remainders. -/
theorem operatorLaw_scaled (noSum : op.isSum = false) (noPower : op ≠ .pow)
    (whole : ¬DividesByZero op (.amount m e)) (number : op.ofNumbers? n m = some x) :
    OperatorLaw rates op (.amount n d) (.amount m e) (scaled (.amount n d) (.amount m e) x) := by
  have amount : resultAmount? rates op (.amount n d) (.amount m e) = some x := by
    rwa [resultAmount?, if_neg (Bool.eq_false_iff.mp noSum)]
  have type : resultType op (.amount n d) (.amount m e) = _ := if_neg noPower
  rw [if_neg fun h => Bool.eq_false_iff.mp noSum h.1, if_neg (Bool.eq_false_iff.mp noSum)] at type
  unfold scaled
  split
  · next left =>
    rw [if_pos left] at type
    exact .of_checked whole amount type.symm
  next left =>
  rw [if_neg left] at type
  split
  · next right =>
    rw [if_pos right] at type
    exact .of_checked whole amount type.symm
  · next right =>
    rw [if_neg right] at type
    exact .of_checked whole amount type.symm

theorem operatorLaw_power :
    OperatorLaw rates .pow (.amount n d) (.amount m e) (power n m) := by
  have whole : ¬DividesByZero .pow (.amount m e) := not_dividesByZero (by decide) (by decide)
  have amount : resultAmount? rates .pow (.amount n d) (.amount m e) = some (n ^ m) := rfl
  simp only [power]
  split
  · next overflow =>
    -- The overflow has a problem of its own, of the same kind as other infinite results.
    refine .of_infinite whole amount (Bool.eq_false_iff.mpr fun finite => ?_) rfl
    rw [Decimal.not_isInf_of_isFinite finite] at overflow
    cases overflow
  · exact .of_checked whole amount rfl

theorem operatorLaw_applyAmounts (finite : n.isFinite = true) :
    ∃ u, applyAmounts rates op (.amount n d) (.amount m e) = .ok u ∧
      OperatorLaw rates op (.amount n d) (.amount m e) u := by
  cases op with
  | add | sub => exact ⟨_, rfl, operatorLaw_addOrSub rfl⟩
  | mul =>
    have whole : ¬DividesByZero .mul (.amount m e) := not_dividesByZero (by decide) (by decide)
    exact ⟨_, rfl, operatorLaw_scaled rfl (by decide) whole rfl⟩
  | div =>
    refine ⟨_, rfl, ?_⟩
    split
    · next zero => exact .of_dividesByZero ⟨.inl rfl, zero⟩ rfl
    · next whole => exact operatorLaw_scaled rfl (by decide) (fun zero => whole zero.2) rfl
  | mod =>
    cases zero : (m == 0) with
    | true =>
      refine ⟨.error .remainderByZero, ?_, .of_dividesByZero ⟨.inr rfl, zero⟩ rfl⟩
      simp only [applyAmounts, magnitude_amount, zero, if_true]
    | false =>
      have whole : ¬DividesByZero .mod (.amount m e) := fun divides => by
        cases divides.2.symm.trans zero
      cases number : Decimal.remainder? n m with
      | some r =>
        refine ⟨scaled (.amount n d) (.amount m e) r, ?_,
          operatorLaw_scaled rfl (by decide) whole number⟩
        simp only [applyAmounts, magnitude_amount, zero, number, Bool.false_eq_true, if_false]
      | none =>
        -- Only an infinite number has no remainder.
        have infinite := ((Decimal.remainder?_eq_none_iff zero).mp number).1
        rw [Decimal.not_isInf_of_isFinite finite] at infinite
        cases infinite
  | pow => exact ⟨_, rfl, operatorLaw_power⟩

theorem apply_eq_applyAmounts (op : BinaryOp) (left : v.isError = false)
    (right : w.isError = false) :
    v.apply rates op w = applyAmounts rates op v.asOperand w.asOperand := by
  cases v with
  | error p => cases left
  | empty | amount =>
    cases w with
    | error p => cases right
    | empty | amount => rfl

/-- Where there is something with a rate under the code of a value, there is a rate to it. -/
theorem RateTable.reaches_iff {source : String} (known : v.Known) (rated : v.isRated = true) :
    rates.Reaches source v.code ↔ (rates.rate? source v.code).isSome = true := by
  obtain ⟨d, found, code⟩ := known rated
  constructor
  · rintro ⟨d', found', rate⟩
    cases found.symm.trans found'
    rwa [code] at rate
  · intro rate
    exact ⟨d, found, by rwa [code]⟩

end

/-- An operator applied to two values without problems, the first of them finite, always gives a
value, by the law of operators; nothing counts as zero. That there is a rate to something means that
the table has one, for all that lines come to. -/
theorem operator_law (rates : RateTable) (op : BinaryOp) {v w : Value} (left : v.isError = false)
    (right : w.isError = false) (finite : v.isFinite = true) :
    (∃ u, v.apply rates op w = .ok u ∧ OperatorLaw rates op v.asOperand w.asOperand u) ∧
      ∀ source (target : Value), target.Known → target.isRated = true →
        (rates.Reaches source target.code ↔ (rates.rate? source target.code).isSome = true) := by
  refine ⟨?_, fun source target => RateTable.reaches_iff⟩
  obtain ⟨n, d, operand⟩ := eq_amount_of_asOperand left
  obtain ⟨m, e, operand'⟩ := eq_amount_of_asOperand right
  have number : n.isFinite = true := by
    cases v with
    | empty =>
      cases operand
      exact isFinite_number_zero
    | error p => cases left
    | amount =>
      cases operand
      exact finite
  rw [apply_eq_applyAmounts op left right, operand, operand']
  exact operatorLaw_applyAmounts number

/-- Metres are added to kilometres. -/
theorem operator_law_exLength :
    ((Value.amount 5 (.unit .kilometer)).isError = false ∧
      (Value.amount 500 (.unit .meter)).isError = false ∧
      (Value.amount 5 (.unit .kilometer)).isFinite = true) ∧
    (Value.amount 5 (.unit .kilometer)).apply [] .add (.amount 500 (.unit .meter)) =
      .ok (.amount 5.5 (.unit .kilometer)) ∧
    OperatorLaw [] .add (.amount 5 (.unit .kilometer)) (.amount 500 (.unit .meter))
      (.amount 5.5 (.unit .kilometer)) := by
  have finite : (Value.amount 5 (.unit .kilometer)).isFinite = true := by decide +kernel
  have sum : (Value.amount 5 (.unit .kilometer)).apply [] .add (.amount 500 (.unit .meter)) =
      .ok (.amount 5.5 (.unit .kilometer)) := eq_ok_of_toOption (by decide +kernel)
  have right : (Value.amount 500 (.unit .meter)).isError = false := rfl
  obtain ⟨⟨u, applied, law⟩, -⟩ := operator_law [] .add rfl right finite
  cases sum.symm.trans applied
  exact ⟨⟨rfl, rfl, finite⟩, sum, law⟩

end LineCalc
