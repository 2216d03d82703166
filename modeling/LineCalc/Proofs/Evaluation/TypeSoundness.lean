import Mathlib
import LineCalc.Proofs.Evaluation.Typing

/-!
# Values have the inferred types

An amount decides whether an operation has a value. It never decides what the value is an amount of.

Results:
1. `eval_type`: an expression that evaluates to no problem has a value of the inferred type.
2. `typeIn_skeleton`: the inferred type does not depend on the amounts in the expression.
3. `type_of_value_fixed`: sessions that agree in types, and expressions that agree up to amounts,
   give values of one type, whatever the amounts and the rates.
-/

namespace LineCalc

/-! ## Operators -/

theorem RateTable.convertValue?_eq_some {t : RateTable} {v w : Value} {code : String} :
    t.convertValue? v code = some w ↔
      v.isRated = true ∧ ∃ d, Denomination.ofRateCode? code = some d ∧
        ∃ n, t.convert? v.magnitude v.code d.code = some n ∧ .amount n d = w := by
  unfold convertValue?
  cases rated : v.isRated with
  | false => simp
  | true => simp [Option.bind_eq_some_iff]

theorem Value.type_combineRated {rates : RateTable} {f : Float → Float → Float} {n m : Float}
    {d e : Denomination} {v : Value} (h : combineRated rates f (.amount n d) (.amount m e) = v)
    (valid : v.isError = false) : v.type = d.type.higher e.type := by
  unfold combineRated at h
  split at h
  · next higher =>
    have lt : d.type.kind.rank < e.type.kind.rank := by
      rw [← Denomination.rank_eq, ← Denomination.rank_eq]
      exact higher
    split at h <;> subst h
    · simp [isError] at valid
    · rw [type_checked valid, type_withAmount, ValueType.higher_of_rank_lt lt, type_amount]
  · next higher =>
    have le : e.type.kind.rank ≤ d.type.kind.rank := by
      rw [← Denomination.rank_eq, ← Denomination.rank_eq]
      exact Nat.le_of_not_lt higher
    split at h <;> subst h
    · simp [isError] at valid
    · rw [type_checked valid, type_withAmount, ValueType.higher_of_rank_le le, type_amount]

theorem Value.rank_le_of_combinesWith {n m : Float} {d e : Denomination}
    (different : (amount n d).isNumber = false)
    (alike : ((amount m e).isNumber || (amount n d).combinesWith (amount m e)) = true) :
    e.type.kind.rank ≤ d.type.kind.rank := by
  simp only [combinesWith, different, Bool.or_eq_true, Bool.and_eq_true, beq_iff_eq] at alike
  rcases alike with number | (left | number) | ⟨same, -⟩
  · rw [isNumber_amount.mp number]
    exact d.rank_pos
  · cases left
  · rw [isNumber_amount.mp number]
    exact d.rank_pos
  · exact Nat.le_of_eq (congrArg ValueKind.rank same.symm)

theorem Value.type_combine {rates : RateTable} {f : Float → Float → Float} {n m : Float}
    {d e : Denomination} {v : Value} (h : combine rates f (.amount n d) (.amount m e) = v)
    (valid : v.isError = false) : v.type = d.type.higher e.type := by
  unfold combine at h
  split at h
  · next number =>
    subst h
    rw [type_checked valid, type_withAmount, isNumber_amount.mp number]
    exact (Denomination.number_higher e).symm
  next different =>
  split at h
  · next alike =>
    subst h
    have le := rank_le_of_combinesWith (Bool.eq_false_iff.mpr different) alike
    rw [type_checked valid, type_withAmount, ValueType.higher_of_rank_le le, type_amount]
  split at h
  · next left right =>
    -- Two units of one dimension: the sum is in that of the first operand.
    cases left
    cases right
    split at h <;> subst h
    · simp [isError] at valid
    · rw [type_checked valid]
      exact (ValueType.higher_of_rank_le (Nat.le_refl _)).symm
  · split at h
    · exact type_combineRated h valid
    · subst h
      simp [isError] at valid

theorem Value.type_addOrSub {rates : RateTable} {op : BinaryOp} {n m : Float}
    {d e : Denomination} {v : Value} (h : addOrSub rates op (.amount n d) (.amount m e) = v)
    (valid : v.isError = false) : v.type = d.type.ofSum e.type := by
  unfold addOrSub at h
  split at h
  · next percentage =>
    have percent : e.type.kind = .percentage := beq_iff_eq.mp percentage
    subst h
    rw [type_checked valid, type_withAmount, type_amount, ValueType.ofSum, if_pos percent]
  · next percentage =>
    have amount : e.type.kind ≠ .percentage := fun h => percentage (beq_iff_eq.mpr h)
    rw [type_combine h valid, ValueType.ofSum, if_neg amount]

theorem Value.type_scaled {n m x : Float} {d e : Denomination} {v : Value}
    (h : scaled (.amount n d) (.amount m e) x = v) (valid : v.isError = false) :
    v.type = d.type.ofProduct e.type := by
  subst h
  rw [scaled, type_checked valid]
  simp only [isNumber_amount, ValueType.ofProduct, Denomination.kind_type_eq_number]
  split
  · rfl
  · split <;> rfl

theorem Value.type_power {x y : Float} {v : Value} (h : power x y = v) (valid : v.isError = false) :
    v.type = .number := by
  simp only [power] at h
  split at h <;> subst h
  · simp [isError] at valid
  · exact type_checked valid

theorem Value.type_applyAmounts {rates : RateTable} {op : BinaryOp} {n m : Float}
    {d e : Denomination} {v : Value}
    (h : applyAmounts rates op (.amount n d) (.amount m e) = .ok v) (valid : v.isError = false) :
    v.type = .ofOperator op d.type e.type := by
  cases op with
  | add | sub =>
    cases h
    simpa [ValueType.ofOperator] using type_addOrSub rfl valid
  | mul =>
    cases h
    simpa [ValueType.ofOperator] using type_scaled rfl valid
  | div =>
    simp only [applyAmounts, Except.ok.injEq] at h
    split at h
    · subst h
      simp [isError] at valid
    · simpa [ValueType.ofOperator] using type_scaled h valid
  | mod =>
    simp only [applyAmounts] at h
    split at h
    · cases h
      simp [isError] at valid
    · split at h
      · cases h
        simpa [ValueType.ofOperator] using type_scaled rfl valid
      · cases h
  | pow =>
    cases h
    exact type_power rfl valid

theorem ValueType.ofOperator_asOperand (op : BinaryOp) (t u : ValueType) :
    ofOperator op t.asOperand u.asOperand = ofOperator op t u := by
  have again (t : ValueType) : t.asOperand.asOperand = t.asOperand := by
    by_cases nothing : t.kind = .empty
    · simp [asOperand, nothing, number]
    · simp [asOperand, nothing]
  cases op <;> simp [ofOperator, again]

/-- An operator gives no amount unless both operands are free of problems, and then one of the type
that its operands give it. -/
theorem Value.type_apply {rates : RateTable} {op : BinaryOp} {v w x : Value}
    (h : v.apply rates op w = .ok x) (valid : x.isError = false) :
    v.isError = false ∧ w.isError = false ∧ x.type = .ofOperator op v.type w.type := by
  unfold apply at h
  split at h
  · cases h
    simp [isError] at valid
  · cases h
    simp [isError] at valid
  · next left right =>
    have validLeft := isError_eq_false left
    have validRight := isError_eq_false right
    refine ⟨validLeft, validRight, ?_⟩
    obtain ⟨n, d, hv⟩ := eq_amount_of_asOperand validLeft
    obtain ⟨m, e, hw⟩ := eq_amount_of_asOperand validRight
    rw [hv, hw] at h
    rw [← ValueType.ofOperator_asOperand, ← type_asOperand, ← type_asOperand, hv, hw]
    exact type_applyAmounts h valid

/-! ## Conversions -/

theorem Value.type_convertRated {rates : RateTable} {v w : Value} {d : Denomination}
    {target : String} (h : convertRated rates v d target = w) (valid : w.isError = false) :
    w.type = ((Denomination.ofRateCode? d.code).map Denomination.type).getD v.type := by
  unfold convertRated at h
  split at h
  · cases found : rates.convertValue? v d.code with
    | none =>
      rw [found] at h
      subst h
      simp [isError] at valid
    | some x =>
      obtain ⟨-, e, code, n, -, rfl⟩ := RateTable.convertValue?_eq_some.mp found
      rw [found] at h
      subst h
      rw [code]
      rfl
  · subst h
    simp [isError] at valid

theorem Value.type_convertNamed {rates : RateTable} {n : Float} {d : Denomination}
    {target : String} {v : Value} (h : convertNamed rates (.amount n d) target = v)
    (valid : v.isError = false) : v.type = d.type.convertNamed target := by
  unfold convertNamed at h
  unfold ValueType.convertNamed
  cases named : Denomination.ofName? target with
  | none =>
    rw [named] at h
    subst h
    simp [isError] at valid
  | some e =>
    simp only [named, isNumber_amount] at h
    simp only [Denomination.kind_type_eq_number]
    split at h
    · next plain =>
      subst h
      rw [if_pos plain]
      rfl
    · next plain =>
      rw [if_neg plain, type_convertRated h valid, type_amount]

theorem ValueType.convertTo_of_ne_unit {t : ValueType} {target : String} (h : t.kind ≠ .unit) :
    t.convertTo target = t.asOperand.convertNamed target := if_neg h

theorem Value.type_convertUnit {rates : RateTable} {n : Float} {u : MeasureUnit} {target : String}
    {v : Value} (h : convertTo rates (.amount n (.unit u)) target = v) (valid : v.isError = false) :
    v.type = (Denomination.unit u).type.convertTo target := by
  have unit : (Denomination.unit u).type.kind = .unit := rfl
  simp only [convertTo] at h
  split at h
  · subst h
    simp [isError] at valid
  rw [ValueType.convertTo, if_pos unit]
  cases named : MeasureUnit.ofName? target with
  | none =>
    simp only [named] at h ⊢
    exact type_convertNamed h valid
  | some w =>
    simp only [named] at h ⊢
    split at h <;> subst h
    · simp [isError] at valid
    · rfl

/-- A conversion of a problem is that problem; all else takes the type that the target names. -/
theorem Value.type_convertTo {rates : RateTable} {v w : Value} {target : String}
    (h : v.convertTo rates target = w) (valid : w.isError = false) :
    v.isError = false ∧ w.type = v.type.convertTo target := by
  cases v with
  | error p =>
    simp only [convertTo] at h
    subst h
    simp [isError] at valid
  | empty =>
    refine ⟨rfl, ?_⟩
    simp only [convertTo] at h
    split at h
    · subst h
      simp [isError] at valid
    · have ne : Value.empty.type.kind ≠ .unit := by decide
      rw [type_convertNamed h valid, ValueType.convertTo_of_ne_unit ne, ← type_asOperand]
      rfl
  | amount n d =>
    refine ⟨rfl, ?_⟩
    cases d with
    | unit u => exact type_convertUnit h valid
    | plain | percent | currency c | metal m | crypto k =>
      simp only [convertTo] at h
      split at h
      · subst h
        simp [isError] at valid
      · rw [type_convertNamed h valid, type_amount, ValueType.convertTo_of_ne_unit,
          Denomination.asOperand_type]
        simp [Denomination.type, Denomination.kind]

/-! ## Functions -/

theorem Aggregate.type_apply {a : Aggregate} {name : String} {args : List Value} {v : Value}
    (h : a.apply name args = .ok v) (valid : v.isError = false) :
    v.type = .ofCall (some (.aggregate a)) (args.map Value.type) := by
  cases args with
  | nil =>
    cases a <;> cases h <;> first | rfl | simp [Value.isError] at valid
  | cons first rest =>
    cases a with
    | count =>
      cases h
      rfl
    | sum | average =>
      obtain ⟨x, -, rfl⟩ := map_ok_iff.mp h
      rw [Value.type_checked valid, Value.type_withAmount]
      rfl
    | least | greatest =>
      cases h
      exact Value.type_withAmount _ _

theorem UnaryFunction.type_apply {f : UnaryFunction} {x : Float}
    (valid : (f.apply x).isError = false) : (f.apply x).type = .number := by
  have real (f : Float → Float) (valid : (real f x).isError = false) :
      (real f x).type = .number := by
    simp only [UnaryFunction.real] at valid ⊢
    split at valid
    · simp [Value.isError] at valid
    · next h => rw [if_neg h, Value.type_checked valid]; rfl
  have integral (f : Decimal.Binary → Int) (valid : (integral f x).isError = false) :
      (integral f x).type = .number := by
    simp only [UnaryFunction.integral] at valid ⊢
    split at valid
    · rfl
    · simp [Value.isError] at valid
  cases f with
  | floor | ceil => exact integral _ valid
  | _ => exact real _ valid

theorem type_roundTo {x places : Float} {v : Value} (h : roundTo x places = .ok v)
    (valid : v.isError = false) : v.type = .number := by
  obtain ⟨k, -, h⟩ := bind_ok_iff.mp h
  split at h
  · cases h
    rw [Value.type_checked valid]
    rfl
  · cases h

theorem ValueType.ofCall_eq_number {f : Option Builtin} {ts : List ValueType}
    (h : ∀ a, f ≠ some (.aggregate a)) : ofCall f ts = .number := by
  unfold ofCall
  split
  · rfl
  · next a _ _ _ => exact absurd rfl (h a)
  · rfl

/-- A call gives a value of the type that its function and its arguments give it. -/
theorem Builtin.type_apply {f : Builtin} {name : String} {args : List Value} {v : Value}
    (h : f.apply name args = .ok v) (valid : v.isError = false) :
    v.type = .ofCall (some f) (args.map Value.type) := by
  cases f with
  | aggregate a => exact Aggregate.type_apply h valid
  | unary f =>
    rw [ValueType.ofCall_eq_number (by simp)]
    rcases args with _ | ⟨x, _ | ⟨y, rest⟩⟩ <;> cases h
    · simp [Value.isError] at valid
    · exact UnaryFunction.type_apply valid
    · simp [Value.isError] at valid
  | round =>
    rw [ValueType.ofCall_eq_number (by simp)]
    rcases args with _ | ⟨x, _ | ⟨places, _ | ⟨z, rest⟩⟩⟩
    · cases h
      simp [Value.isError] at valid
    · exact type_roundTo h valid
    · exact type_roundTo h valid
    · cases h
      simp [Value.isError] at valid
  | power =>
    rw [ValueType.ofCall_eq_number (by simp)]
    rcases args with _ | ⟨x, _ | ⟨y, _ | ⟨z, rest⟩⟩⟩ <;> cases h
    · simp [Value.isError] at valid
    · simp [Value.isError] at valid
    · exact Value.type_power rfl valid
    · simp [Value.isError] at valid

/-! ## Expressions -/

theorem Value.type_share {fraction : Float} {v : Value}
    (valid : (v.share fraction).isError = false) :
    v.isError = false ∧ (v.share fraction).type = v.type.asOperand := by
  cases v with
  | error p => simp [share, isError] at valid
  | empty | amount n d =>
    refine ⟨rfl, ?_⟩
    simp only [share] at valid ⊢
    rw [type_checked valid, type_withAmount, type_asOperand]

@[simp] theorem Value.isError_negate (v : Value) : v.negate.isError = v.isError := by
  cases v <;> rfl

theorem Scope.type_resolve {s : Scope} {name : String} (valid : (s.resolve name).isError = false) :
    (s.resolve name).type = (s.signature.find name).getD .number := by
  unfold resolve at valid ⊢
  simp only [signature]
  cases found : s.find name with
  | some v => rfl
  | none =>
    simp only [found] at valid ⊢
    split at valid
    · simp [Value.isError] at valid
    · next h => rw [if_neg h]; rfl

theorem Scope.type_resume {s : Scope} {op : BinaryOp} {v w : Value}
    (h : s.resume op v = .ok w) (valid : w.isError = false) :
    v.isError = false ∧ w.type = if s.previous.isEmpty then v.type
      else .ofOperator op s.previous.type v.type := by
  unfold resume at h
  split at h
  · next nothing =>
    rw [if_pos nothing]
    split at h <;> cases h
    · exact ⟨by simpa using valid, v.type_negate⟩
    · exact ⟨valid, rfl⟩
  · next something =>
    rw [if_neg something]
    exact (Value.type_apply h valid).2

theorem Value.isEmpty_iff {v : Value} : v.isEmpty = true ↔ v.type.kind = .empty := by
  cases v with
  | empty => simp [isEmpty, type, kind]
  | error p => simp [isEmpty, type, kind]
  | amount n d => cases d <;> simp [isEmpty, Denomination.type, Denomination.kind]

mutual

/-- An expression that evaluates to no problem has a value of the inferred type. -/
theorem eval_type {s : Scope} {e : Expr} {v : Value} (h : e.eval s = .ok v)
    (valid : v.isError = false) : v.type = e.typeIn s.signature := by
  cases e with
  | literal x d raw =>
    simp only [Expr.eval] at h
    cases h
    rfl
  | name n =>
    simp only [Expr.eval] at h
    cases h
    exact Scope.type_resolve valid
  | binary left op right =>
    simp only [Expr.eval] at h
    obtain ⟨l, hl, h⟩ := bind_ok_iff.mp h
    split at h
    · cases h
      simp [Value.isError] at valid
    · obtain ⟨r, hr, h⟩ := bind_ok_iff.mp h
      obtain ⟨validLeft, validRight, type⟩ := Value.type_apply h valid
      rw [type, eval_type hl validLeft, eval_type hr validRight, Expr.typeIn]
  | signed sign e =>
    rw [Expr.typeIn]
    cases sign with
    | plus =>
      simp only [Expr.eval] at h
      exact eval_type h valid
    | minus =>
      simp only [Expr.eval] at h
      obtain ⟨w, hw, rfl⟩ := map_ok_iff.mp h
      rw [Value.type_negate]
      exact eval_type hw (by simpa using valid)
  | percentOf fraction raw base =>
    simp only [Expr.eval] at h
    obtain ⟨b, hb, rfl⟩ := map_ok_iff.mp h
    obtain ⟨validBase, type⟩ := Value.type_share valid
    rw [type, eval_type hb validBase, Expr.typeIn]
  | conversion e target =>
    simp only [Expr.eval] at h
    obtain ⟨w, hw, rfl⟩ := map_ok_iff.mp h
    obtain ⟨validSource, type⟩ := Value.type_convertTo rfl valid
    rw [type, eval_type hw validSource, Expr.typeIn]
  | call function args =>
    simp only [Expr.eval] at h
    obtain ⟨_ | vs, hvs, h⟩ := bind_ok_iff.mp h
    · cases h
      simp [Value.isError] at valid
    · simp only at h
      rw [Expr.typeIn, ← evalArgs_types hvs]
      split at h
      · next f named =>
        rw [named]
        exact Builtin.type_apply h valid
      · cases h
        simp [Value.isError] at valid
  | group e =>
    simp only [Expr.eval] at h
    rw [Expr.typeIn]
    exact eval_type h valid
  | resume op e =>
    simp only [Expr.eval] at h
    obtain ⟨w, hw, h⟩ := bind_ok_iff.mp h
    obtain ⟨validOperand, type⟩ := Scope.type_resume h valid
    rw [type, eval_type hw validOperand, Expr.typeIn]
    simp only [Value.isEmpty_iff]
    rfl
  | resumeConversion target =>
    simp only [Expr.eval, Except.ok.injEq] at h
    split at h
    · subst h
      simp [Value.isError] at valid
    · rw [(Value.type_convertTo h valid).2, Expr.typeIn]
      rfl

/-- The arguments of a call have the inferred types. -/
theorem evalArgs_types {s : Scope} {es : List Expr} {vs : List Value}
    (h : evalArgs s es = .ok (.ok vs)) : vs.map Value.type = typesOfArgs s.signature es := by
  cases es with
  | nil =>
    simp only [evalArgs] at h
    cases h
    rfl
  | cons e es =>
    simp only [evalArgs] at h
    obtain ⟨v, hv, h⟩ := bind_ok_iff.mp h
    split at h
    · cases h
    · next notError =>
      obtain ⟨_ | ws, hws, h⟩ := bind_ok_iff.mp h
      · cases h
      · cases h
        have valid := Value.isError_eq_false notError
        rw [List.map_cons, Value.type_asOperand, eval_type hv valid, evalArgs_types hws,
          typesOfArgs]

end

/-! ## Amounts do not matter -/

mutual

/-- The inferred type does not depend on the amounts in the expression. -/
theorem typeIn_skeleton (σ : Signature) (e : Expr) : e.skeleton.typeIn σ = e.typeIn σ := by
  cases e with
  | literal | name | resumeConversion => simp only [Expr.skeleton, Expr.typeIn]
  | binary left op right =>
    simp only [Expr.skeleton, Expr.typeIn, typeIn_skeleton σ left, typeIn_skeleton σ right]
  | signed _ e | percentOf _ _ e | conversion e _ | group e | resume _ e =>
    simp only [Expr.skeleton, Expr.typeIn, typeIn_skeleton σ e]
  | call function args => simp only [Expr.skeleton, Expr.typeIn, typesOfArgs_skeletons σ args]

theorem typesOfArgs_skeletons (σ : Signature) (es : List Expr) :
    typesOfArgs σ (skeletons es) = typesOfArgs σ es := by
  cases es with
  | nil => rfl
  | cons e es =>
    simp only [skeletons, typesOfArgs, typeIn_skeleton σ e, typesOfArgs_skeletons σ es]

end

/-- Two sessions in which every name has values of one type or none at all, and in which the
previous results are of one type, if there are any. -/
structure Session.SameTypes (s t : Session) : Prop where
  names : ∀ n, (s.find? n).map Value.type = (t.find? n).map Value.type
  previous : s.previous.type = t.previous.type

/-- Amounts and rates decide whether an expression has a value, never what it is an amount of: in
two sessions of the same types, and of two expressions that differ in their amounts alone, all
values are of one kind and one code. Whether the sessions are strict makes no difference. -/
theorem type_of_value_fixed {e f : Expr} {s t : Session} {rates rates' : RateTable} {v w : Value}
    (expressions : e.skeleton = f.skeleton) (sessions : s.SameTypes t)
    (first : e.eval (s.scope rates) = .ok v) (second : f.eval (t.scope rates') = .ok w)
    (validFirst : v.isError = false) (validSecond : w.isError = false) :
    v.kind = w.kind ∧ v.code = w.code := by
  have signatures : (s.scope rates).signature = (t.scope rates').signature := by
    simp only [Scope.signature, Session.scope, Signature.mk.injEq]
    exact ⟨funext sessions.names, sessions.previous⟩
  have types : v.type = w.type := by
    calc v.type = e.typeIn (s.scope rates).signature := eval_type first validFirst
      _ = e.skeleton.typeIn (t.scope rates').signature := by rw [typeIn_skeleton, signatures]
      _ = f.typeIn (t.scope rates').signature := by rw [expressions, typeIn_skeleton]
      _ = w.type := (eval_type second validSecond).symm
  exact ⟨congrArg ValueType.kind types, congrArg ValueType.code types⟩

/-- A session with one variable, worth so many dollars. -/
def exDollars (n : Float) : Session := { bindings := [("x", .amount n (.currency .usDollar))] }

/-- The variable and so many euros. -/
def exSum (n : Float) : Expr := .binary (.name "x") .add (.literal n (.currency .euro) "")

theorem exDollars_sameTypes (n m : Float) : (exDollars n).SameTypes (exDollars m) := by
  refine ⟨fun name => ?_, rfl⟩
  simp only [exDollars, Session.find?, Session.total, List.lookup, List.find?]
  split
  · rfl
  · split
    · rfl
    · cases name == "x" <;> cases Text.lower "x" == Text.lower name <;> rfl

theorem eval_exSum_first : (exSum 2).eval ((exDollars 1).scope [(("EUR", "USD"), 1.5)]) =
    .ok (.amount 4 (.currency .usDollar)) :=
  eq_ok_of_toOption (by decide +kernel)

theorem eval_exSum_second : (exSum 3).eval ((exDollars 7).scope [(("EUR", "USD"), 2)]) =
    .ok (.amount 13 (.currency .usDollar)) :=
  eq_ok_of_toOption (by decide +kernel)

theorem skeleton_exSum (n m : Float) : (exSum n).skeleton = (exSum m).skeleton := by
  simp only [exSum, Expr.skeleton]

theorem type_of_value_fixed_sum :
    ((exSum 2).skeleton = (exSum 3).skeleton ∧ (exDollars 1).SameTypes (exDollars 7) ∧
      (exSum 2).eval ((exDollars 1).scope [(("EUR", "USD"), 1.5)]) =
        .ok (.amount 4 (.currency .usDollar)) ∧
      (exSum 3).eval ((exDollars 7).scope [(("EUR", "USD"), 2)]) =
        .ok (.amount 13 (.currency .usDollar))) ∧
    (Value.amount 4 (.currency .usDollar)).kind = (Value.amount 13 (.currency .usDollar)).kind ∧
    (Value.amount 4 (.currency .usDollar)).code = (Value.amount 13 (.currency .usDollar)).code :=
  ⟨⟨skeleton_exSum 2 3, exDollars_sameTypes 1 7, eval_exSum_first, eval_exSum_second⟩,
    type_of_value_fixed (skeleton_exSum 2 3) (exDollars_sameTypes 1 7) eval_exSum_first
      eval_exSum_second rfl rfl⟩

end LineCalc
