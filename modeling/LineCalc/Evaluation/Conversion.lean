import LineCalc.Catalog.Conversion
import LineCalc.Rates.Cache

/-!
# Conversions of values

A value is converted to what a name stands for. A plain number becomes that amount of it; a unit
becomes a unit of the same quantity; money, metals and tokens become each other by rates.
-/

namespace LineCalc.Value

/-- A rated value or a percentage or a unit in what a name stands for. -/
def convertRated (rates : RateTable) (v : Value) (d : Denomination) (target : String) : Value :=
  if v.isRated && d.isRated then
    (rates.convertValue? v d.code).getD (.error (.noRateInto d.code))
  else .error (.targetMismatch target)

/-- A value in what a name stands for. -/
def convertNamed (rates : RateTable) (v : Value) (target : String) : Value :=
  match Denomination.ofName? target with
  | none => .error (.unknownTarget target)
  | some d => if v.isNumber then .amount v.magnitude d else convertRated rates v d target

/-- A value converted to what a name stands for. After a unit the name means a unit first. -/
def convertTo (rates : RateTable) (v : Value) (target : String) : Value :=
  match v with
  | .error p => .error p
  | _ =>
    if target.isEmpty then .error .missingTarget
    else match v with
      | .amount n (.unit u) =>
        match MeasureUnit.ofName? target with
        | none => convertNamed rates v target
        | some w =>
          match u.convert n w with
          | none => .error (.unitMismatch u.code w.code)
          | some m => .amount m (.unit w)
      | .empty => convertNamed rates (.number 0) target
      | v => convertNamed rates v target

end LineCalc.Value
