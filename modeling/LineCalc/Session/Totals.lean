import LineCalc.Session

/-!
# Totals by kind

The lines of a session added up for each kind of thing: money, metals and tokens together, through
dollars; units by quantity; plain numbers. Percentages are left out. What no rate leads to dollars
from is added up for each code.
-/

namespace LineCalc

/-- Totals while the lines are gone through. -/
structure Grouping where
  /-- The money in dollars. -/
  dollars : Float := 0
  /-- The code that the money is shown in: that of the last currency, or of the first metal or token
  if there is no currency. -/
  moneyCode : Option String := none
  /-- Values without a rate to dollars, by code. -/
  stranded : Entries String Value := []
  /-- Units by quantity, each in the unit used last. -/
  units : Entries Quantity Value := []
  plain : Float := 0

namespace Grouping

/-- One more rated value. -/
def addRated (g : Grouping) (rates : RateTable) (v : Value) : Grouping :=
  match rates.convert? v.magnitude v.code baseCode with
  | none =>
    let sum := match g.stranded.lookup v.code with
      | none => v
      | some earlier => earlier.withAmount (earlier.magnitude + v.magnitude)
    { g with stranded := g.stranded.set v.code sum }
  | some dollars =>
    { g with
      dollars := g.dollars + dollars
      moneyCode :=
        if v.kind == .currency || g.moneyCode.isNone then some v.code else g.moneyCode }

/-- One more amount of a unit. -/
def addUnit (g : Grouping) (n : Float) (u : MeasureUnit) : Grouping :=
  match g.units.lookup u.quantity with
  | some (.amount m (.unit w)) =>
    match w.convert m u with
    | none => g
    | some moved =>
      { g with units := g.units.set u.quantity (.amount (moved + n) (.unit u)) }
  | _ => { g with units := g.units.set u.quantity (.amount n (.unit u)) }

/-- One more value. -/
def add (g : Grouping) (rates : RateTable) (v : Value) : Grouping :=
  if v.isRated then g.addRated rates v
  else match v with
    | .amount n (.unit u) => g.addUnit n u
    | .amount n .plain => { g with plain := g.plain + n }
    | _ => g

/-- The money in the code that it is shown in, or in dollars if no rate leads there. -/
def money (g : Grouping) (rates : RateTable) : Option Value :=
  g.moneyCode.bind fun code =>
    match rates.convert? g.dollars baseCode code with
    | some n => (Denomination.ofRateCode? code).map (.amount n)
    | none => (Denomination.ofRateCode? baseCode).map (.amount g.dollars)

/-- The totals in order. -/
def values (g : Grouping) (rates : RateTable) : List Value :=
  (g.money rates).toList ++ g.stranded.map (·.2) ++ g.units.map (·.2)
    ++ (if g.plain != 0 then [.number g.plain] else [])

end Grouping

/-- The totals of a session by kind. -/
def Session.groupedTotals (s : Session) (rates : RateTable) : List Value :=
  let g := (s.history.filter (·.counts)).foldl (fun g r => g.add rates r.value) ({} : Grouping)
  g.values rates

end LineCalc
