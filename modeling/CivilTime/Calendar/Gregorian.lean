/- The proleptic Gregorian calendar on all integer years: leap years, the lengths of months and years,
and the place of a day in its year. Nothing here is bounded; the range of supported years is a matter
of `Date`. -/
namespace CivilTime

/-- A day written as year, month and day of month. The fields are any integers. -/
structure YearMonthDay where
  year : Int
  month : Int
  day : Int
  deriving DecidableEq, Repr

namespace Calendar

/-- Every fourth year is a leap year, of the centuries only every fourth. -/
def isLeapYear (year : Int) : Bool :=
  year % 4 == 0 && (year % 100 != 0 || year % 400 == 0)

theorem isLeapYear_iff (year : Int) :
    isLeapYear year = true ↔ year % 4 = 0 ∧ (year % 100 ≠ 0 ∨ year % 400 = 0) := by
  simp [isLeapYear]

def daysInYear (year : Int) : Int :=
  if isLeapYear year then 366 else 365

/-- The length of a month in a common year. Numbers that name no month count as long months. -/
def commonMonthLength (month : Int) : Int :=
  if month = 2 then 28
  else if month = 4 ∨ month = 6 ∨ month = 9 ∨ month = 11 then 30
  else 31

def monthLength (year month : Int) : Int :=
  if month = 2 ∧ isLeapYear year then 29 else commonMonthLength month

theorem monthLength_pos (year month : Int) : 28 ≤ monthLength year month := by
  unfold monthLength commonMonthLength
  split
  · omega
  · split
    · omega
    · split <;> omega

theorem monthLength_le (year month : Int) : monthLength year month ≤ 31 := by
  unfold monthLength commonMonthLength
  split
  · omega
  · split
    · omega
    · split <;> omega

/-- Days of a common year before the first of the month. -/
def daysBeforeMonth (month : Int) : Int :=
  if month = 2 then 31
  else if month = 3 then 59
  else if month = 4 then 90
  else if month = 5 then 120
  else if month = 6 then 151
  else if month = 7 then 181
  else if month = 8 then 212
  else if month = 9 then 243
  else if month = 10 then 273
  else if month = 11 then 304
  else if month = 12 then 334
  else 0

end Calendar

namespace YearMonthDay

/-- The place of the day in its year, from 1. -/
def dayOfYear (d : YearMonthDay) : Int :=
  Calendar.daysBeforeMonth d.month + d.day +
    if 2 < d.month ∧ Calendar.isLeapYear d.year then 1 else 0

/-- The day exists in the calendar, in whatever year. -/
def Exists (d : YearMonthDay) : Prop :=
  1 ≤ d.month ∧ d.month ≤ 12 ∧ 1 ≤ d.day ∧ d.day ≤ Calendar.monthLength d.year d.month

instance (d : YearMonthDay) : Decidable d.Exists := by
  unfold Exists
  infer_instance

end YearMonthDay

end CivilTime
