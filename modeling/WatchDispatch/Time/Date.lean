/-!
Calendar dates.

A date of the Gregorian calendar, extended to all years. Besides the fields there are only the steps
to the next and to the previous day: a change of the offset from UTC moves a time across midnight at
most once.
-/

namespace WatchDispatch.Time

/-- Every fourth year is a leap year, of the full centuries every fourth. -/
def isLeapYear (year : Int) : Bool := year % 4 = 0 && (year % 100 ≠ 0 || year % 400 = 0)

def daysIn (year : Int) (month : Nat) : Nat :=
  if month = 2 then if isLeapYear year then 29 else 28
  else if month = 4 ∨ month = 6 ∨ month = 9 ∨ month = 11 then 30
  else 31

theorem one_le_daysIn (year : Int) (month : Nat) : 1 ≤ daysIn year month := by
  unfold daysIn
  split
  · split <;> omega
  · split <;> omega

structure Date where
  year : Int
  month : Nat
  day : Nat
  month_pos : 1 ≤ month
  month_le : month ≤ 12
  day_pos : 1 ≤ day
  day_le : day ≤ daysIn year month
deriving DecidableEq, Repr

namespace Date

instance : Inhabited Date := ⟨⟨1970, 1, 1, by decide, by decide, by decide, by decide⟩⟩

/-- The day with these numbers, if the calendar has it. -/
def ofNumbers? (year : Int) (month day : Nat) : Option Date :=
  if h : 1 ≤ month ∧ month ≤ 12 ∧ 1 ≤ day ∧ day ≤ daysIn year month then
    some ⟨year, month, day, h.1, h.2.1, h.2.2.1, h.2.2.2⟩
  else none

def next (d : Date) : Date :=
  if h : d.day + 1 ≤ daysIn d.year d.month then
    ⟨d.year, d.month, d.day + 1, d.month_pos, d.month_le, by omega, h⟩
  else if h : d.month + 1 ≤ 12 then
    ⟨d.year, d.month + 1, 1, by omega, h, by omega, one_le_daysIn _ _⟩
  else ⟨d.year + 1, 1, 1, by omega, by omega, by omega, one_le_daysIn _ _⟩

def previous (d : Date) : Date :=
  if h : 2 ≤ d.day then
    ⟨d.year, d.month, d.day - 1, d.month_pos, d.month_le, by omega, by have := d.day_le; omega⟩
  else if h : 2 ≤ d.month then
    ⟨d.year, d.month - 1, daysIn d.year (d.month - 1), by omega, by have := d.month_le; omega,
      one_le_daysIn _ _, Nat.le_refl _⟩
  else
    ⟨d.year - 1, 12, daysIn (d.year - 1) 12, by omega, by omega, one_le_daysIn _ _, Nat.le_refl _⟩

theorem ofNumbers?_self (d : Date) : ofNumbers? d.year d.month d.day = some d := by
  simp [ofNumbers?, d.month_pos, d.month_le, d.day_pos, d.day_le]

end Date

end WatchDispatch.Time
