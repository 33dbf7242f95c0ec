/- Moving a calendar day by whole months, without a bound on the year. -/
import CivilTime.Calendar.DayNumber

namespace CivilTime

namespace YearMonthDay

/-- Months counted from January of year 0. -/
def monthIndex (d : YearMonthDay) : Int :=
  d.year * 12 + (d.month - 1)

/-- The day of month is kept where the target month has it; otherwise the last day of that month is
taken. -/
def addMonths (d : YearMonthDay) (months : Int) : YearMonthDay :=
  let total := d.monthIndex + months
  let year := total / 12
  let month := total % 12 + 1
  { year, month, day := min d.day (Calendar.monthLength year month) }

theorem addMonths_monthIndex (d : YearMonthDay) (months : Int) :
    (d.addMonths months).monthIndex = d.monthIndex + months := by
  simp only [addMonths, monthIndex]
  omega

theorem addMonths_month_bounds (d : YearMonthDay) (months : Int) :
    1 ≤ (d.addMonths months).month ∧ (d.addMonths months).month ≤ 12 := by
  simp only [addMonths]
  omega

theorem addMonths_day_le (d : YearMonthDay) (months : Int) : (d.addMonths months).day ≤ d.day := by
  simp only [addMonths]
  omega

end YearMonthDay

namespace Calendar

/-- Where a move by months and then by days ends, on the unbounded calendar. -/
def shifted (dayNumber months days : Int) : Int :=
  (if months = 0 then dayNumber
   else ((YearMonthDay.ofDayNumber dayNumber).addMonths months).dayNumber) + days

@[simp] theorem shifted_zero (n days : Int) : shifted n 0 days = n + days := by
  simp [shifted]

end Calendar

end CivilTime
