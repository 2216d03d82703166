import LineCalc.Proofs.Decimal.Sum
import LineCalc.Proofs.Evaluation.OperatorLaw

/-!
# The order of operands

A product is the same in either order. A sum is too where the ranks of its operands decide what it is
an amount of, that is, for operands of different kinds: the lower ranked is converted in both orders.
Of one kind the first operand decides, so a sum is the same in either order only if both are of one
type. A percentage on the right counts as a share of what is on the left, so it is not exchanged with
that.

Results:
1. `combine_comm`: sums of amounts in either order, if the sum of their numbers is.
2. `operands_commute`: products and sums of values in either order.
-/

namespace LineCalc

open Value

/-! ## Results that say the same -/

/-- Two results say the same: the same amount of the same type, or the same problem; only of problems
of types, which name both operands, it is enough that they are two such problems. -/
structure SaysSame (u x : Value) : Prop where
  type : u.type = x.type
  magnitude : u.magnitude = x.magnitude
  problem : ∀ p q, u = .error p → x = .error q → p = q ∨ p.kind = .typing ∧ q.kind = .typing

/-- The values are of different kinds, or of one kind with one code. -/
def Exchangeable (v w : Value) : Prop := v.kind ≠ w.kind ∨ v.type = w.type

section

variable {rates : RateTable} {f : Float → Float → Float} {v w : Value} {n m x : Float}
  {d e : Denomination} {p q : Problem}

theorem SaysSame.refl (v : Value) : SaysSame v v :=
  ⟨rfl, rfl, fun _ _ left right => .inl (Value.error.inj (left.symm.trans right))⟩

theorem SaysSame.of_typing (left : p.kind = .typing) (right : q.kind = .typing) :
    SaysSame (.error p) (.error q) :=
  ⟨rfl, rfl, fun _ _ eq eq' => .inr ⟨Value.error.inj eq ▸ left, Value.error.inj eq' ▸ right⟩⟩

/-- One number as an amount of two denominations of one type. -/
theorem SaysSame.of_checked (type : d.type = e.type) :
    SaysSame (checked (.amount x d)) (checked (.amount x e)) := by
  rw [checked_amount, checked_amount]
  by_cases finite : x.isFinite = true
  · rw [if_pos finite, if_pos finite]
    exact ⟨type, rfl, nofun⟩
  · rw [if_neg finite, if_neg finite]
    exact .refl _

/-! ## Sums of amounts -/

theorem Denomination.rank_ne (apart : d.kind ≠ e.kind) : d.rank ≠ e.rank := by
  intro same
  cases d <;> cases e <;> first | exact apart rfl | cases same

theorem combine_number_left :
    combine rates f (number n) (.amount m e) = checked (.amount (f n m) e) := if_pos rfl

theorem combine_number_right :
    combine rates f (.amount n d) (number m) = checked (.amount (f n m) d) := by
  unfold combine
  split
  · next number =>
    rw [isNumber_amount.mp number]
    rfl
  · exact if_pos rfl

theorem combine_of_type (same : d.type = e.type) :
    combine rates f (.amount n d) (.amount m e) = checked (.amount (f n m) d) := by
  have together : (amount n d).combinesWith (.amount m e) = true :=
    combinesWith_iff.mpr (.inr (.inr same))
  unfold combine
  split
  · next number =>
    have plain : d = .plain := isNumber_amount.mp number
    subst plain
    rw [Denomination.kind_type_eq_number.mp (congrArg ValueType.kind same).symm]
    rfl
  · rw [together, Bool.or_true]
    rfl

/-- Amounts of different kinds have a sum by rates or none. -/
theorem combine_of_kinds (left : d ≠ .plain) (right : e ≠ .plain) (apart : d.kind ≠ e.kind) :
    combine rates f (.amount n d) (.amount m e) =
      if d.isRated && e.isRated then combineRated rates f (.amount n d) (.amount m e)
      else .error (.cannotCombine d.kind.label e.kind.label) := by
  have noNumber : ¬(amount n d).isNumber = true := fun number => left (isNumber_amount.mp number)
  have noNumber' : ¬(amount m e).isNumber = true := fun number => right (isNumber_amount.mp number)
  have different : ¬((amount m e).isNumber || (amount n d).combinesWith (.amount m e)) = true := by
    rw [Bool.or_eq_true, combinesWith_iff]
    rintro (number | number | number | same)
    · exact noNumber' number
    · exact noNumber number
    · exact noNumber' number
    · exact apart (type_eq_iff.mp same).1
  unfold combine
  rw [if_neg noNumber, if_neg different]
  cases d with
  | unit u => cases e with
    | unit w => exact absurd rfl apart
    | plain | percent | currency | metal | crypto => rfl
  | plain | percent | currency | metal | crypto => rfl

/-- The lower ranked of two rated values is converted, in either order. -/
theorem combineRated_comm (comm : ∀ x y, f x y = f y x) (apart : v.rank ≠ w.rank) :
    combineRated rates f v w = combineRated rates f w v := by
  unfold combineRated
  rcases Nat.lt_or_gt_of_ne apart with below | above
  · rw [if_pos below, if_neg (Nat.lt_asymm below)]
    cases rates.convertValue? v w.code with
    | none => rfl
    | some u =>
      dsimp only
      rw [comm]
  · rw [if_neg (Nat.lt_asymm above), if_pos above]
    cases rates.convertValue? w v.code with
    | none => rfl
    | some u =>
      dsimp only
      rw [comm]

/-- A sum says the same in either order, if the sum of the numbers does not depend on theirs. -/
theorem combine_comm (comm : ∀ x y, f x y = f y x)
    (exchangeable : Exchangeable (.amount n d) (.amount m e)) :
    SaysSame (combine rates f (.amount n d) (.amount m e))
      (combine rates f (.amount m e) (.amount n d)) := by
  by_cases left : d = .plain
  · subst left
    rw [← number, combine_number_left, combine_number_right, comm]
    exact .refl _
  by_cases right : e = .plain
  · subst right
    rw [← number, combine_number_left, combine_number_right, comm]
    exact .refl _
  rcases exchangeable with apart | same
  · rw [combine_of_kinds left right apart, combine_of_kinds right left apart.symm,
      Bool.and_comm e.isRated]
    split
    · have ranks : (amount n d).rank ≠ (amount m e).rank := Denomination.rank_ne apart
      rw [combineRated_comm comm ranks]
      exact .refl _
    · exact .of_typing rfl rfl
  · rw [combine_of_type same, combine_of_type same.symm, comm]
    exact .of_checked same

/-! ## Values -/

theorem scaled_comm : scaled (.amount n d) (.amount m e) x = scaled (.amount m e) (.amount n d) x := by
  unfold scaled
  congr 1
  split
  · next left =>
    split
    · next right =>
      rw [isNumber_amount.mp left, isNumber_amount.mp right]
      rfl
    · rfl
  · rfl

theorem kind_asOperand (share : v.kind ≠ .percentage) : v.asOperand.kind ≠ .percentage := by
  cases v with
  | empty => decide
  | error | amount => exact share

theorem addOrSub_of_kind (share : w.kind ≠ .percentage) :
    addOrSub rates .add v w = combine rates (· + ·) v w :=
  if_neg fun percent => share (beq_iff_eq.mp percent)

theorem exchangeable_number : Exchangeable (number n) (.amount m e) := by
  by_cases plain : e = .plain
  · subst plain
    exact .inr rfl
  · exact .inl fun kind => plain (Denomination.kind_type_eq_number.mp kind.symm)

theorem Exchangeable.symm (h : Exchangeable v w) : Exchangeable w v := h.imp Ne.symm Eq.symm

theorem Exchangeable.asOperand (left : v.isError = false) (right : w.isError = false)
    (h : Exchangeable v w) : Exchangeable v.asOperand w.asOperand := by
  cases v with
  | error p => cases left
  | amount n d => cases w with
    | error p => cases right
    | amount m e => exact h
    | empty => exact exchangeable_number.symm
  | empty => cases w with
    | error p => cases right
    | amount m e => exact exchangeable_number
    | empty => exact exchangeable_number

end

/-- A product of two values without problems is the same in either order. So is a sum of two that
are no percentages, if they are of different kinds or of one type: the amounts are the same, or the
problems are, but for the order in which two kinds that have no sum are named. Nothing counts as
zero. -/
theorem operands_commute (rates : RateTable) {v w : Value} (left : v.isError = false)
    (right : w.isError = false) :
    v.apply rates .mul w = w.apply rates .mul v ∧
      (v.kind ≠ .percentage → w.kind ≠ .percentage → v.kind ≠ w.kind ∨ v.type = w.type →
        ∃ u x, v.apply rates .add w = .ok u ∧ w.apply rates .add v = .ok x ∧ SaysSame u x) := by
  rw [apply_eq_applyAmounts .mul left right, apply_eq_applyAmounts .mul right left,
    apply_eq_applyAmounts .add left right, apply_eq_applyAmounts .add right left]
  constructor
  · obtain ⟨n, d, operand⟩ := eq_amount_of_asOperand left
    obtain ⟨m, e, operand'⟩ := eq_amount_of_asOperand right
    rw [operand, operand']
    show Except.ok (scaled (.amount n d) (.amount m e) (n * m)) =
      .ok (scaled (.amount m e) (.amount n d) (m * n))
    rw [Decimal.mul_comm_double, scaled_comm]
  · intro share share' exchangeable
    have exchangeable := Exchangeable.asOperand left right exchangeable
    refine ⟨_, _, rfl, rfl, ?_⟩
    rw [addOrSub_of_kind (kind_asOperand share'), addOrSub_of_kind (kind_asOperand share)]
    obtain ⟨n, d, operand⟩ := eq_amount_of_asOperand left
    obtain ⟨m, e, operand'⟩ := eq_amount_of_asOperand right
    rw [operand, operand'] at exchangeable ⊢
    exact combine_comm Decimal.add_comm_double exchangeable

/-- Dollars and a token that has a rate to dollars. -/
theorem operands_commute_exToken :
    let dollars := Value.amount 100 (.currency .usDollar)
    let token := Value.amount 2 (.crypto .bitcoin)
    let rates := RateTable.store [] "BTC" "USD" 50000
    let sum := Value.amount 100100 (.currency .usDollar)
    (dollars.isError = false ∧ token.isError = false) ∧
      (dollars.kind ≠ .percentage ∧ token.kind ≠ .percentage ∧ dollars.kind ≠ token.kind) ∧
      dollars.apply rates .add token = .ok sum ∧
      ∃ x, token.apply rates .add dollars = .ok x ∧ SaysSame sum x := by
  intro dollars token rates sum
  have kinds : dollars.kind ≠ .percentage ∧ token.kind ≠ .percentage ∧ dollars.kind ≠ token.kind := by
    decide
  have added : dollars.apply rates .add token = .ok sum := eq_ok_of_toOption (by decide +kernel)
  obtain ⟨u, x, first, second, same⟩ :=
    (operands_commute rates (v := dollars) (w := token) rfl rfl).2 kinds.1 kinds.2.1 (.inl kinds.2.2)
  cases added.symm.trans first
  exact ⟨⟨rfl, rfl⟩, kinds, added, x, second, same⟩

/-- Percentages are not exchanged: a tenth and a twentieth of it, a twentieth and a tenth of it. -/
example :
    ((Value.amount 0.1 .percent).apply [] .add (.amount 0.05 .percent)).toOption ≠
      ((Value.amount 0.05 .percent).apply [] .add (.amount 0.1 .percent)).toOption := by
  decide +kernel

end LineCalc
