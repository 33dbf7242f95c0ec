/- Days counted without months: the Julian day number of a calendar day and back. Day number 0 lies in
the year -4713, and every integer is the number of exactly one day. -/
import CivilTime.Calendar.Gregorian

namespace CivilTime

namespace Calendar

/-- The day 1970-01-01. -/
def epochDay : Int := 2440588

/-- The day 0001-01-01, the first that a `Date` can be. -/
def firstDay : Int := 1721426

/-- The day 9999-12-31, the last that a `Date` can be. -/
def lastDay : Int := 5373484

def firstYear : Int := 1
def lastYear : Int := 9999

/-- ISO number of the day of the week, Monday 1 to Sunday 7. -/
def weekdayNumber (dayNumber : Int) : Int :=
  dayNumber % 7 + 1

theorem weekdayNumber_bounds (n : Int) : 1 ≤ weekdayNumber n ∧ weekdayNumber n ≤ 7 := by
  unfold weekdayNumber
  omega

end Calendar

namespace YearMonthDay

/-- The year is counted from March, so that the leap day is its last day and the months before a
given one have `(153 * m + 2) / 5` days. -/
def dayNumber (d : YearMonthDay) : Int :=
  let a := (14 - d.month) / 12
  let y := d.year + 4800 - a
  let m := d.month + 12 * a - 3
  d.day + (153 * m + 2) / 5 + 365 * y + y / 4 - y / 100 + y / 400 - 32045

/-- The calendar day with a given number. -/
def ofDayNumber (n : Int) : YearMonthDay :=
  let f := n + 1401 + (4 * n + 274277) / 146097 * 3 / 4 - 38
  let e := 4 * f + 3
  let g := e % 1461 / 4
  let h := 5 * g + 2
  let day := h % 153 / 5 + 1
  let month := (h / 153 + 2) % 12 + 1
  { year := e / 1461 - 4716 + (14 - month) / 12, month, day }

end YearMonthDay

end CivilTime
