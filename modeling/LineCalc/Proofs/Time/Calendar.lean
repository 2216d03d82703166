import LineCalc.Time.Calendar
import Mathlib.Tactic

/-!
# Days and dates

The date of a day number is a date of the calendar.

Results:
1. `Time.yearOf_spec`: the year of a day number is the one that the day lies in.
2. `Time.dateOf_valid`: the month of a date is one of the twelve and has the day.
-/

namespace LineCalc.Time

/-- The days of a year. -/
def daysInYear (year : Int) : Nat := if isLeap year then 366 else 365

theorem isLeap_iff (year : Int) :
    isLeap year = true ↔ year % 4 = 0 ∧ (year % 100 ≠ 0 ∨ year % 400 = 0) := by
  simp [isLeap]

/-- A year ends where the next one begins. -/
theorem daysBeforeYear_succ (year : Int) :
    daysBeforeYear (year + 1) = daysBeforeYear year + daysInYear year := by
  unfold daysBeforeYear daysInYear
  split
  · next leap =>
    rw [isLeap_iff] at leap
    push_cast
    omega
  · next common =>
    rw [isLeap_iff] at common
    push_cast
    omega

/-- A day lies in its year. -/
theorem yearOf_spec (day : Int) : firstDay + daysBeforeYear (yearOf day) ≤ day ∧
    day < firstDay + daysBeforeYear (yearOf day + 1) := by
  unfold yearOf daysBeforeYear firstDay
  dsimp only
  split
  · omega
  · split <;> omega

/-- The days of a month and of `left` months after it. -/
def daysFrom (year : Int) : (left month : Nat) → Nat
  | 0, month => daysInMonth year month
  | left + 1, month => daysInMonth year month + daysFrom year left (month + 1)

/-- Twelve months are a year. -/
theorem daysFrom_first (year : Int) : daysFrom year 11 1 = daysInYear year := by
  simp only [daysFrom, daysInMonth, daysInYear]
  cases isLeap year <;> rfl

/-- A day within some months lies in one of them. -/
theorem monthAndDay_valid {year : Int} {left month days : Nat}
    (within : days < daysFrom year left month) :
    month ≤ (monthAndDay year left month days).1 ∧
      (monthAndDay year left month days).1 ≤ month + left ∧
      1 ≤ (monthAndDay year left month days).2 ∧
      (monthAndDay year left month days).2 ≤
        daysInMonth year (monthAndDay year left month days).1 := by
  induction left generalizing month days with
  | zero => exact ⟨le_rfl, le_rfl, Nat.succ_pos days, within⟩
  | succ left ih =>
    rw [monthAndDay]
    split
    · next here => exact ⟨le_rfl, Nat.le_add_right month _, Nat.succ_pos days, here⟩
    · next later =>
      have rest : days - daysInMonth year month < daysFrom year left (month + 1) := by
        rw [daysFrom] at within
        omega
      obtain ⟨least, most, valid⟩ := ih rest
      exact ⟨Nat.le_of_succ_le least, by omega, valid⟩

/-- The date of a day is one of the calendar. -/
theorem dateOf_valid (day : Int) : 1 ≤ (dateOf day).month ∧ (dateOf day).month ≤ 12 ∧
    1 ≤ (dateOf day).day ∧ (dateOf day).day ≤ daysInMonth (dateOf day).year (dateOf day).month := by
  obtain ⟨begun, ends⟩ := yearOf_spec day
  rw [daysBeforeYear_succ] at ends
  have within : (day - firstDay - daysBeforeYear (yearOf day)).toNat <
      daysFrom (yearOf day) 11 1 := by
    rw [daysFrom_first]
    omega
  exact monthAndDay_valid within

end LineCalc.Time
