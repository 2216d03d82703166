/-!
# Calendar

The Gregorian calendar in both directions of time, with days counted from 1970-01-01.
-/

namespace LineCalc.Time

/-- A year with a 29th of February. -/
def isLeap (year : Int) : Bool :=
  year % 4 == 0 && (year % 100 != 0 || year % 400 == 0)

/-- The days of a month. -/
def daysInMonth (year : Int) : Nat → Nat
  | 2 => if isLeap year then 29 else 28
  | 4 | 6 | 9 | 11 => 30
  | _ => 31

/-- The days before a year, from the first of January of year 1. -/
def daysBeforeYear (year : Int) : Int :=
  let y := year - 1
  y * 365 + y / 4 - y / 100 + y / 400

/-- The days of a year before a month. -/
def daysBeforeMonth (year : Int) (month : Nat) : Nat :=
  (List.range (month - 1)).foldl (fun days m => days + daysInMonth year (m + 1)) 0

/-- The day number of the first day of year 1. -/
def firstDay : Int := -719162

/-- The day number of a date. -/
def dayNumber (year : Int) (month day : Nat) : Int :=
  firstDay + daysBeforeYear year + daysBeforeMonth year month + day - 1

/-- A date. -/
structure Date where
  year : Int
  month : Nat
  day : Nat
deriving DecidableEq, Repr

/-- The month and day that lie `days` days after the first day of the month `month`. The months left
in the year bound the search. -/
def monthAndDay (year : Int) : (left month days : Nat) → Nat × Nat
  | 0, month, days => (month, days + 1)
  | left + 1, month, days =>
    if days < daysInMonth year month then (month, days + 1)
    else monthAndDay year left (month + 1) (days - daysInMonth year month)

/-- The year that a day number lies in: an estimate by the mean length of a year, which is too low
by at most one. -/
def yearOf (day : Int) : Int :=
  let estimate := (day - firstDay) * 400 / 146097 + 1
  if firstDay + daysBeforeYear (estimate + 1) ≤ day then estimate + 1
  else if day < firstDay + daysBeforeYear estimate then estimate - 1
  else estimate

/-- The date of a day number. -/
def dateOf (day : Int) : Date :=
  let year := yearOf day
  let (month, day) := monthAndDay year 11 1 (day - firstDay - daysBeforeYear year).toNat
  ⟨year, month, day⟩

/-- The day of the week, Monday first. -/
def weekday (day : Int) : Nat := ((day + 3) % 7).toNat

/-- The Monday of the first week of a year, which is the week with the first Thursday. -/
def firstMonday (year : Int) : Int :=
  let first := dayNumber year 1 1
  let monday := first - weekday first
  if weekday first > 3 then monday + 7 else monday

/-- The weeks of a year. -/
def weeksInYear (year : Int) : Nat :=
  ((firstMonday (year + 1) - firstMonday year) / 7).toNat

end LineCalc.Time
