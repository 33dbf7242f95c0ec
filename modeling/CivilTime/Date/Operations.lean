/- Checked dates, and arithmetic on dates by months and days. -/
import CivilTime.Duration.Operations

namespace CivilTime

namespace Calendar

def checkYear (year : Int) : Except Fault Unit :=
  if firstYear ≤ year ∧ year ≤ lastYear then .ok () else .error (.yearRange year)

def checkMonth (month : Int) : Except Fault Unit :=
  if 1 ≤ month ∧ month ≤ 12 then .ok () else .error (.monthRange month)

/-- The day of month against the length of its month. -/
def checkDay (year month day : Int) : Except Fault Unit :=
  if 1 ≤ day ∧ day ≤ monthLength year month then .ok () else .error (.dayRange year month day)

/-- The supported day of a year, month and day. The year is judged first, then the month, then the
day. -/
def checkedDay (year month day : Int) : Except Fault YearMonthDay := do
  checkYear year
  checkMonth month
  checkDay year month day
  return { year, month, day }

/-- An integer, or the complaint that the field is none. -/
def integerField (field : DateField) (d : Datum) : Except Fault Int :=
  match d.int? with
  | some n => .ok n
  | none => .error (.dateFieldNotInteger field d)

/-- The same with fields that need not be integers. Each is judged before the next one is looked at. -/
def checkedFields (year month day : Datum) : Except Fault YearMonthDay := do
  let year ← integerField .year year
  checkYear year
  let month ← integerField .month month
  checkMonth month
  let day ← integerField .day day
  checkDay year month day
  return { year, month, day }

theorem checkedFields_int (year month day : Int) :
    checkedFields (.int year) (.int month) (.int day) = checkedDay year month day := rfl

/-- The length of a month, for years that a date can have. -/
def daysInMonth (year month : Datum) : Except Fault Int := do
  let year ← integerField .year year
  checkYear year
  let month ← integerField .month month
  checkMonth month
  return monthLength year month

/-- Moving by months fails if the year that is reached is not supported. -/
def addMonths (d : YearMonthDay) (months : Int) : Except Fault YearMonthDay :=
  let moved := d.addMonths months
  if firstYear ≤ moved.year ∧ moved.year ≤ lastYear then .ok moved
  else .error (.yearOverflow moved.year)

/-- The date with a given day number, or the given complaint. -/
def dateAt (dayNumber : Int) (outside : Fault) : Except Fault Date :=
  match Date.ofDayNumber? dayNumber with
  | some date => .ok date
  | none => .error outside

/-- Moving a numbered day by months, if there are any, and then by days. -/
def shift (dayNumber months days : Int) : Except Fault Date := do
  let start ←
    if months = 0 then pure dayNumber
    else YearMonthDay.dayNumber <$> addMonths (YearMonthDay.ofDayNumber dayNumber) months
  dateAt (start + days) .dateOverflow

/-- The distance from an earlier to a later point, each a day number with nanoseconds, as whole months
and then whole days that do not go past the later point. -/
def monthsDaysBetween (earlierDay earlierNanos laterDay laterNanos : Int) :
    Except Fault (Int × Int) := do
  let start := YearMonthDay.ofDayNumber earlierDay
  let months := (YearMonthDay.ofDayNumber laterDay).monthIndex - start.monthIndex
  let anchor ← YearMonthDay.dayNumber <$> addMonths start months
  let (months, anchor) ←
    if laterDay < anchor ∨ (anchor = laterDay ∧ laterNanos < earlierNanos) then do
      let anchor ← YearMonthDay.dayNumber <$> addMonths start (months - 1)
      pure (months - 1, anchor)
    else pure (months, anchor)
  let days := laterDay - anchor
  return (months, if 0 < days ∧ laterNanos < earlierNanos then days - 1 else days)

end Calendar

namespace Date

/-- The date of a year, month and day that name a supported day. -/
def ofYmd (year month day : Int) : Except Fault Date := do
  let d ← Calendar.checkedDay year month day
  Calendar.dateAt d.dayNumber .dateOverflow

/-- The date of fields that need not be integers. -/
def ofFields (year month day : Datum) : Except Fault Date := do
  let d ← Calendar.checkedFields year month day
  Calendar.dateAt d.dayNumber .dateOverflow

theorem ofFields_int (year month day : Int) :
    ofFields (.int year) (.int month) (.int day) = ofYmd year month day := rfl

/-- The date with a given day number. -/
def ofDayNumber (n : Int) : Except Fault Date := Calendar.dateAt n (.dayNumberRange n)

def ofDayNumberField (d : Datum) : Except Fault Date := do
  let n ← Calendar.integerField .dayNumber d
  ofDayNumber n

def shift (d : Date) (months days : Int) : Except Fault Date :=
  Calendar.shift d.dayNumber months days

def addDays (d : Date) (days : Int) : Except Fault Date := d.shift 0 days

def addMonths (d : Date) (months : Int) : Except Fault Date := d.shift months 0

def addYears (d : Date) (years : Int) : Except Fault Date := d.addMonths (years * 12)

/-- Months first, then days. A duration with nanoseconds cannot be added to a date. -/
def add (d : Date) (duration : Duration) : Except Fault Date :=
  if duration.nanos = 0 then d.shift duration.months duration.days
  else .error (.timePartForDate duration)

def subtract (d : Date) (duration : Duration) : Except Fault Date := d.add (-duration)

/-- The distance from an earlier date, in months and then days. -/
def since (later earlier : Date) : Except Fault Duration := do
  let (months, days) ← Calendar.monthsDaysBetween earlier.dayNumber 0 later.dayNumber 0
  Duration.ofParts months days 0

/-- The distance from `b` to `a`, negative if `a` is the earlier one. -/
def diff (a b : Date) : Except Fault Duration :=
  if a < b then (-·) <$> b.since a else a.since b

/-- The date with some of its fields replaced. Nothing is clamped. -/
def replace (d : Date) (year month day : Option Datum) : Except Fault Date :=
  ofFields (year.getD (.int d.year)) (month.getD (.int d.month)) (day.getD (.int d.day))

end Date

end CivilTime
