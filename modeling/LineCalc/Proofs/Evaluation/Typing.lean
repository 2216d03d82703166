import LineCalc.Proofs.Result
import LineCalc.Session.Eval

/-!
# Types of values

The type of a value is what is left of it without the amount: its kind and its code. `Expr.typeIn`
infers the type of an expression from the types of the names in it and of the previous result,
without looking at an amount or a rate. That the values have the inferred types is the subject of
`LineCalc.Proofs.Evaluation.TypeSoundness`.
-/

namespace LineCalc

/-! ## Types -/

/-- The type of a value: what it is an amount of, by kind and code. -/
structure ValueType where
  kind : ValueKind
  code : String
deriving DecidableEq, Repr

/-- The type of the amounts of a denomination. -/
def Denomination.type (d : Denomination) : ValueType := ⟨d.kind, d.code⟩

/-- The type of a value. Nothing and problems are of types of their own. -/
def Value.type (v : Value) : ValueType := ⟨v.kind, v.code⟩

/-- The rank of a kind, zero for what is no amount. -/
def ValueKind.rank : ValueKind → Nat
  | .empty | .error => 0
  | .number => 1
  | .percentage => 2
  | .unit => 3
  | .metal => 4
  | .crypto => 5
  | .currency => 6

namespace ValueType

/-- The type of plain numbers. -/
def number : ValueType := ⟨.number, ""⟩

/-- The type as that of an operand: nothing counts as a number. -/
def asOperand (t : ValueType) : ValueType := if t.kind = .empty then number else t

/-- The type of higher rank, the first if they rank the same. -/
def higher (t u : ValueType) : ValueType := if u.kind.rank > t.kind.rank then u else t

/-- The type of a sum or difference. A percentage changes an amount and leaves its type. -/
def ofSum (t u : ValueType) : ValueType := if u.kind = .percentage then t else t.higher u

/-- The type of a product, quotient or remainder: there are no products of units. -/
def ofProduct (t u : ValueType) : ValueType :=
  if t.kind = .number then u else if u.kind = .number then t else number

/-- The type that an operator gives to operands of two types. -/
def ofOperator (op : BinaryOp) (t u : ValueType) : ValueType :=
  match op with
  | .add | .sub => ofSum t.asOperand u.asOperand
  | .mul | .div | .mod => ofProduct t.asOperand u.asOperand
  | .pow => number

/-- The type of an amount converted to what a name stands for. Rated amounts get the type that
rates are kept for under the code of the target. -/
def convertNamed (t : ValueType) (target : String) : ValueType :=
  match Denomination.ofName? target with
  | none => t
  | some d =>
    if t.kind = .number then d.type
    else ((Denomination.ofRateCode? d.code).map Denomination.type).getD t

/-- The type of a converted amount. After a unit the name means a unit first. -/
def convertTo (t : ValueType) (target : String) : ValueType :=
  if t.kind = .unit then
    match MeasureUnit.ofName? target with
    | some u => (Denomination.unit u).type
    | none => t.convertNamed target
  else t.asOperand.convertNamed target

/-- The type that a function gives to arguments of some types: that of the first argument for sums,
averages and extremes, else a number. -/
def ofCall (f : Option Builtin) (args : List ValueType) : ValueType :=
  match f, args with
  | some (.aggregate .count), _ => number
  | some (.aggregate _), t :: _ => t
  | _, _ => number

end ValueType

/-- The types that an expression is read in: those of the names, where they have a value, and that
of the previous result. -/
structure Signature where
  find : String → Option ValueType
  previous : ValueType

/-- The types in a scope. -/
def Scope.signature (s : Scope) : Signature := ⟨fun n => (s.find n).map Value.type, s.previous.type⟩

mutual

/-- The type of an expression. Names without a value count as numbers. -/
def Expr.typeIn (σ : Signature) : Expr → ValueType
  | .literal _ d _ => d.type
  | .name n => (σ.find n).getD .number
  | .binary left op right => .ofOperator op (left.typeIn σ) (right.typeIn σ)
  | .signed _ e => e.typeIn σ
  | .percentOf _ _ base => (base.typeIn σ).asOperand
  | .conversion e target => (e.typeIn σ).convertTo target
  | .call function args => .ofCall (Builtin.ofName? (Text.lower function)) (typesOfArgs σ args)
  | .group e => e.typeIn σ
  | .resume op e =>
    if σ.previous.kind = .empty then e.typeIn σ else .ofOperator op σ.previous (e.typeIn σ)
  | .resumeConversion target => σ.previous.convertTo target

/-- The types of arguments. -/
def typesOfArgs (σ : Signature) : List Expr → List ValueType
  | [] => []
  | e :: es => (e.typeIn σ).asOperand :: typesOfArgs σ es

end

mutual

/-- An expression without its amounts: zeros in place of all that the text gives. -/
def Expr.skeleton : Expr → Expr
  | .literal _ d _ => .literal 0 d ""
  | .name n => .name n
  | .binary left op right => .binary left.skeleton op right.skeleton
  | .signed sign e => .signed sign e.skeleton
  | .percentOf _ _ base => .percentOf 0 "" base.skeleton
  | .conversion e target => .conversion e.skeleton target
  | .call function args => .call function (skeletons args)
  | .group e => .group e.skeleton
  | .resume op e => .resume op e.skeleton
  | .resumeConversion target => .resumeConversion target

/-- Expressions without their amounts. -/
def skeletons : List Expr → List Expr
  | [] => []
  | e :: es => e.skeleton :: skeletons es

end

/-! ## Values and their types -/

@[simp] theorem Value.type_amount (n : Float) (d : Denomination) :
    (Value.amount n d).type = d.type := rfl

@[simp] theorem Value.type_withAmount (v : Value) (n : Float) : (v.withAmount n).type = v.type := by
  cases v <;> rfl

@[simp] theorem Value.type_negate (v : Value) : v.negate.type = v.type :=
  v.type_withAmount _

@[simp] theorem Denomination.asOperand_type (d : Denomination) : d.type.asOperand = d.type := by
  cases d <;> rfl

@[simp] theorem Value.type_asOperand (v : Value) : v.asOperand.type = v.type.asOperand := by
  cases v with
  | empty => rfl
  | error p => rfl
  | amount n d => exact d.asOperand_type.symm

theorem Denomination.rank_eq (d : Denomination) : d.rank = d.type.kind.rank := by
  cases d <;> rfl

/-- The check of an amount for being finite keeps the type of what passes it. -/
theorem Value.type_checked {v : Value} (valid : v.checked.isError = false) :
    v.checked.type = v.type := by
  unfold checked at valid ⊢
  split
  · rfl
  · next infinite => simp [infinite, isError] at valid

theorem Value.eq_amount_of_asOperand {v : Value} (valid : v.isError = false) :
    ∃ n d, v.asOperand = .amount n d := by
  cases v with
  | empty => exact ⟨0, .plain, rfl⟩
  | error p => simp [isError] at valid
  | amount n d => exact ⟨n, d, rfl⟩

theorem ValueType.higher_of_rank_le {t u : ValueType} (le : u.kind.rank ≤ t.kind.rank) :
    t.higher u = t := if_neg (Nat.not_lt.mpr le)

theorem ValueType.higher_of_rank_lt {t u : ValueType} (lt : t.kind.rank < u.kind.rank) :
    t.higher u = u := if_pos lt

/-- Every amount ranks at least as high as a plain number. -/
theorem Denomination.number_higher (d : Denomination) :
    ValueType.number.higher d.type = d.type := by
  cases d <;> rfl

theorem Denomination.rank_pos (d : Denomination) : 0 < d.type.kind.rank := by
  cases d <;> simp [type, kind, ValueKind.rank]

theorem Denomination.kind_type_eq_number {d : Denomination} :
    d.type.kind = .number ↔ d = .plain := by
  cases d <;> simp [type, kind]

theorem Value.isNumber_amount {n : Float} {d : Denomination} :
    (amount n d).isNumber = true ↔ d = .plain := by
  simp only [isNumber, beq_iff_eq]
  exact Denomination.kind_type_eq_number

end LineCalc
