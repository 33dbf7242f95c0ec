/- Dates of the years 1 to 9999, held as day numbers. -/
import CivilTime.Calendar.Months
import CivilTime.Weekday

namespace CivilTime

/-- A day of the years 1 to 9999. -/
structure Date where
  dayNumber : Int
  firstDay_le : Calendar.firstDay ≤ dayNumber
  le_lastDay : dayNumber ≤ Calendar.lastDay
  deriving DecidableEq

namespace Date

theorem ext_dayNumber {a b : Date} (h : a.dayNumber = b.dayNumber) : a = b := by
  cases a
  cases b
  cases h
  rfl

/-- Dates are ordered by day. -/
instance : LT Date := ⟨fun a b => a.dayNumber < b.dayNumber⟩

instance : LE Date := ⟨fun a b => a.dayNumber ≤ b.dayNumber⟩

instance (a b : Date) : Decidable (a < b) :=
  inferInstanceAs (Decidable (a.dayNumber < b.dayNumber))

instance (a b : Date) : Decidable (a ≤ b) :=
  inferInstanceAs (Decidable (a.dayNumber ≤ b.dayNumber))

def min : Date := ⟨Calendar.firstDay, by decide, by decide⟩

def max : Date := ⟨Calendar.lastDay, by decide, by decide⟩

/-- The date with a given day number, if the number is in range. -/
def ofDayNumber? (n : Int) : Option Date :=
  if h : Calendar.firstDay ≤ n ∧ n ≤ Calendar.lastDay then some ⟨n, h.1, h.2⟩ else none

theorem ofDayNumber?_eq_some {n : Int} {d : Date} : ofDayNumber? n = some d ↔ d.dayNumber = n := by
  unfold ofDayNumber?
  split
  · rename_i h
    constructor
    · intro e
      cases e
      rfl
    · intro e
      exact congrArg some (ext_dayNumber e.symm)
  · rename_i h
    constructor
    · intro e
      cases e
    · intro e
      exact absurd ⟨e ▸ d.firstDay_le, e ▸ d.le_lastDay⟩ h

def ymd (d : Date) : YearMonthDay :=
  YearMonthDay.ofDayNumber d.dayNumber

def year (d : Date) : Int := d.ymd.year

def month (d : Date) : Int := d.ymd.month

def day (d : Date) : Int := d.ymd.day

def weekday (d : Date) : Weekday :=
  Weekday.ofDayNumber d.dayNumber

def dayOfYear (d : Date) : Int :=
  d.ymd.dayOfYear

def isLeapYear (d : Date) : Bool :=
  Calendar.isLeapYear d.year

def daysInMonth (d : Date) : Int :=
  Calendar.monthLength d.year d.month

end Date

end CivilTime
