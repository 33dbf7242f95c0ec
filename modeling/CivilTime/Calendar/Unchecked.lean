/- Calendar arithmetic on arguments that nobody has checked. Truth values are reckoned with as zero and
one, a move by what counts as not given is no move, and a number with a fraction leads to no day. -/
import CivilTime.Date.Operations
import CivilTime.Datum.Arithmetic
import CivilTime.Datum.Order

namespace CivilTime

namespace Calendar

/-- A number, or the complaint that there is nothing to reckon with. -/
def number (d : Datum) : Except Error Quantity :=
  match d.quantity? with
  | some q => .ok q
  | none => .error .unsupported

/-- No number with a fraction is a leap year. -/
def isLeapYearOf (year : Datum) : Except Error Bool := do
  match ← number year with
  | .whole n => return isLeapYear n
  | .fractional _ => return false

def daysInYearOf (year : Datum) : Except Error Int := do
  return if ← isLeapYearOf year then 366 else 365

theorem daysInYearOf_int (year : Int) : daysInYearOf (.int year) = .ok (daysInYear year) := rfl

def weekdayNumberOf (dayNumber : Datum) : Except Error Quantity := do
  let n ← number dayNumber
  return (n.floorMod 7).add (.whole 1)

/-- The place of a day in its year. Months from -1 down to -13 are counted from the end of the year, and
the year matters only behind its leap day. -/
def dayOfYearOf (year month day : Datum) : Except Error Quantity := do
  match month.whole? with
  | none => throw .unsupported
  | some m =>
    if m < -13 ∨ 12 < m then throw .unsupported
    let before := daysBeforeMonth (if m < 0 then m + 13 else m)
    let place := (Quantity.whole before).add (← number day)
    if 2 < m then
      if ← isLeapYearOf year then return place.add (.whole 1)
    return place

theorem dayOfYearOf_int {month : Int} (h1 : 1 ≤ month) (h12 : month ≤ 12) (year day : Int) :
    dayOfYearOf (.int year) (.int month) (.int day) =
      .ok (.whole (YearMonthDay.dayOfYear { year, month, day })) := by
  have hrange : ¬(month < -13 ∨ 12 < month) := by omega
  have hfirst : ¬month < 0 := by omega
  simp only [dayOfYearOf, Datum.whole?, if_neg hrange, if_neg hfirst, number, Datum.quantity?, isLeapYearOf,
    YearMonthDay.dayOfYear]
  by_cases hm : 2 < month
  · cases hl : isLeapYear year <;> simp [hm, hl, bind, Except.bind, pure, Except.pure, Quantity.add]
  · simp [hm, bind, Except.bind, pure, Except.pure, Quantity.add]

/-- Year and month of a month counted from January of year 0. A number with a fraction counts no month,
but its year is judged first. -/
def yearMonthOf (monthIndex : Quantity) : Except Error (Int × Int) :=
  match monthIndex with
  | .whole n =>
    if firstYear ≤ n / 12 ∧ n / 12 ≤ lastYear then .ok (n / 12, n % 12 + 1)
    else .error (.fault (.yearOverflow (n / 12)))
  | q =>
    let year := q.floorDiv 12
    if year.isBelow firstYear ∨ year.isAbove lastYear then .error (.fractionalYear year.toDatum)
    else .error .unsupported

theorem yearMonthOf_whole (n : Int) :
    yearMonthOf (.whole n) = if firstYear ≤ n / 12 ∧ n / 12 ≤ lastYear then .ok (n / 12, n % 12 + 1)
      else .error (.fault (.yearOverflow (n / 12))) := rfl

/-- A day of month, or the last one of its month if that comes sooner. -/
def clampedDay (year month : Int) (day : Datum) : Except Error Datum := do
  let last := monthLength year month
  let q ← number day
  return if q.isAbove last then .int last else day

theorem clampedDay_int (year month day : Int) :
    clampedDay year month (.int day) = .ok (.int (min day (monthLength year month))) := by
  simp only [clampedDay, number, Datum.quantity?, Quantity.isAbove_whole, bind, Except.bind, pure, Except.pure,
    decide_eq_true_eq]
  split <;> congr 2 <;> omega

/-- Moving a year and month by months. -/
def addMonthsOf (year month months : Datum) : Except Error (Int × Int) := do
  let year ← number year
  let month ← number month
  let months ← number months
  yearMonthOf (((year.scale 12).add (month.sub (.whole 1))).add months)

/-- On integers this is the move of a day, whose day of month is taken apart from its month. -/
theorem clampedDay_addMonthsOf_int (year month day months : Int) :
    (addMonthsOf (.int year) (.int month) (.int months) >>= fun moved =>
        (moved.1, moved.2, ·) <$> clampedDay moved.1 moved.2 (.int day)) =
      ((addMonths { year, month, day } months).map fun d => (d.year, d.month, Datum.int d.day)).mapError .fault := by
  let total := year * 12 + (month - 1) + months
  show yearMonthOf (.whole total) >>= _ = _
  rw [yearMonthOf_whole]
  by_cases hy : firstYear ≤ total / 12 ∧ total / 12 ≤ lastYear
  · have ha : addMonths { year, month, day } months =
        .ok (YearMonthDay.addMonths { year, month, day } months) := if_pos hy
    rw [if_pos hy, ha]
    show (total / 12, total % 12 + 1, ·) <$> clampedDay (total / 12) (total % 12 + 1) (.int day) = _
    rw [clampedDay_int]
    rfl
  · have ha : addMonths { year, month, day } months = .error (.yearOverflow (total / 12)) := if_neg hy
    rw [if_neg hy, ha]
    rfl

/-- Year and month of a numbered day, counted as months from January of year 0. The formula is that of
whole day numbers. -/
def monthIndexOf (dayNumber : Quantity) : Quantity :=
  let plus (q : Quantity) (n : Int) : Quantity := q.add (.whole n)
  match dayNumber with
  | .whole n => .whole (YearMonthDay.ofDayNumber n).monthIndex
  | n =>
    let centuries := (((plus (n.scale 4) 274277).floorDiv 146097).scale 3).floorDiv 4
    let f := plus ((plus n 1401).add centuries) (-38)
    let e := plus (f.scale 4) 3
    let h := plus (((e.floorMod 1461).floorDiv 4).scale 5) 2
    let month := plus ((plus (h.floorDiv 153) 2).floorMod 12) 1
    let year := (plus (e.floorDiv 1461) (-4716)).add (((Quantity.whole 14).sub month).floorDiv 12)
    (year.scale 12).add (plus month (-1))

theorem monthIndexOf_whole (n : Int) :
    monthIndexOf (.whole n) = .whole (YearMonthDay.ofDayNumber n).monthIndex := rfl

/-- A day of which only the number is known, moved by months if any are given. -/
def movedByMonths (dayNumber : Datum) (months : Datum) : Except Error Quantity := do
  let start ← number dayNumber
  if months.isGiven then
    let months ← number months
    let (year, month) ← yearMonthOf ((monthIndexOf start).add months)
    match start with
    | .whole n =>
      let day := min (YearMonthDay.ofDayNumber n).day (monthLength year month)
      return .whole (YearMonthDay.dayNumber { year, month, day })
    | .fractional _ => throw .unsupported
  else return start

theorem movedByMonths_int (n months : Int) :
    movedByMonths (.int n) (.int months) =
      if months = 0 then .ok (.whole n)
      else ((addMonths (YearMonthDay.ofDayNumber n) months).map fun d =>
        Quantity.whole d.dayNumber).mapError .fault := by
  by_cases h : months = 0
  · subst h
    rfl
  · have hg : (Datum.int months).isGiven = true := by simp [Datum.isGiven, h]
    rw [if_neg h]
    unfold movedByMonths
    simp only [number, Datum.quantity?, bind, Except.bind, hg, if_true, monthIndexOf_whole, Quantity.add,
      yearMonthOf]
    by_cases hy : firstYear ≤ ((YearMonthDay.ofDayNumber n).monthIndex + months) / 12 ∧
        ((YearMonthDay.ofDayNumber n).monthIndex + months) / 12 ≤ lastYear
    · have ha : addMonths (YearMonthDay.ofDayNumber n) months =
          .ok ((YearMonthDay.ofDayNumber n).addMonths months) := if_pos hy
      rw [if_pos hy, ha]
      rfl
    · have ha : addMonths (YearMonthDay.ofDayNumber n) months = .error (.yearOverflow _) := if_neg hy
      rw [if_neg hy, ha]
      rfl

/-- Moving a numbered day by months, if any are given, and then by days. -/
def shiftOf (dayNumber months days : Datum) : Except Error Quantity := do
  let start ← movedByMonths dayNumber months
  let moved := start.add (← number days)
  if moved.isBelow firstDay ∨ moved.isAbove lastDay then throw (.fault .dateOverflow)
  return moved

/-- On integers this is the move of checked dates. -/
theorem shiftOf_int (n months days : Int) :
    shiftOf (.int n) (.int months) (.int days) =
      ((shift n months days).map fun d => Quantity.whole d.dayNumber).mapError .fault := by
  unfold shiftOf shift
  rw [movedByMonths_int]
  have hs (start : Int) :
      (if (Quantity.whole (start + days)).isBelow firstDay = true ∨
          (Quantity.whole (start + days)).isAbove lastDay = true then
        throw (Error.fault .dateOverflow) else pure (Quantity.whole (start + days)) : Except Error Quantity) =
      ((dateAt (start + days) .dateOverflow).map fun d => Quantity.whole d.dayNumber).mapError .fault := by
    simp only [Quantity.isBelow_whole, Quantity.isAbove_whole, decide_eq_true_eq]
    unfold dateAt Date.ofDayNumber?
    by_cases h : firstDay ≤ start + days ∧ start + days ≤ lastDay
    · rw [dif_pos h, if_neg (by omega)]
      rfl
    · rw [dif_neg h, if_pos (by omega)]
      rfl
  by_cases h : months = 0
  · simp only [if_pos h]
    exact hs n
  · simp only [if_neg h]
    cases ha : addMonths (YearMonthDay.ofDayNumber n) months with
    | error f => rfl
    | ok d => exact hs d.dayNumber

/-- Whether one number of nanoseconds exceeds another. They are not looked at before they matter. -/
def exceeds (a b : Datum) : Except Error Bool :=
  match a.order? b with
  | some o => .ok (o == .gt)
  | none => .error .unsupported

theorem exceeds_int (m n : Int) : exceeds (.int m) (.int n) = .ok (decide (n < m)) := by
  have h := Quantity.isAbove_whole n m
  simp only [exceeds, Datum.order?, Datum.quantity?]
  exact congrArg Except.ok h

/-- Whether a day with the earlier nanoseconds lies past the later point. Nanoseconds that are the same
need no order. -/
def passes (day laterDay : Int) (earlierNanos laterNanos : Datum) : Except Error Bool :=
  if day ≠ laterDay then .ok (decide (laterDay < day))
  else if earlierNanos.same laterNanos then .ok false
  else exceeds earlierNanos laterNanos

theorem passes_int (day laterDay m n : Int) :
    passes day laterDay (.int m) (.int n) =
      .ok (decide (laterDay < day ∨ (day = laterDay ∧ n < m))) := by
  simp only [passes, Datum.same_int, exceeds_int, decide_eq_true_eq]
  split
  · exact congrArg Except.ok (decide_eq_decide.mpr (by omega))
  · split
    · exact congrArg Except.ok (decide_eq_false (by omega)).symm
    · exact congrArg Except.ok (decide_eq_decide.mpr (by omega))

/-- Whole days that do not go past the later point. -/
def wholeDays (days : Int) (earlierNanos laterNanos : Datum) : Except Error Int :=
  if 0 < days then (fun more => if more then days - 1 else days) <$> exceeds earlierNanos laterNanos
  else .ok days

theorem wholeDays_int (days m n : Int) :
    wholeDays days (.int m) (.int n) = .ok (if 0 < days ∧ n < m then days - 1 else days) := by
  rw [wholeDays, exceeds_int]
  by_cases h : 0 < days
  · rw [if_pos h]
    by_cases hn : n < m
    · rw [if_pos ⟨h, hn⟩, decide_eq_true hn]
      rfl
    · rw [if_neg (fun hc => hn hc.2), decide_eq_false hn]
      rfl
  · rw [if_neg h, if_neg (fun hc => h hc.1)]

/-- The distance between two points as whole months and whole days. -/
def monthsDaysBetweenOf (earlierDay earlierNanos laterDay laterNanos : Datum) :
    Except Error (Int × Int) := do
  match ← number earlierDay, ← number laterDay with
  | .whole first, .whole last =>
    let start := YearMonthDay.ofDayNumber first
    let months := (YearMonthDay.ofDayNumber last).monthIndex - start.monthIndex
    let anchor ← YearMonthDay.dayNumber <$> addMonths start months
    if ← passes anchor last earlierNanos laterNanos then
      let anchor ← YearMonthDay.dayNumber <$> addMonths start (months - 1)
      return (months - 1, ← wholeDays (last - anchor) earlierNanos laterNanos)
    else return (months, ← wholeDays (last - anchor) earlierNanos laterNanos)
  | first, last =>
    let start := monthIndexOf first
    let _ ← yearMonthOf (start.add ((monthIndexOf last).sub start))
    throw .unsupported

theorem monthsDaysBetweenOf_int (a m b n : Int) :
    monthsDaysBetweenOf (.int a) (.int m) (.int b) (.int n) =
      (monthsDaysBetween a m b n).mapError .fault := by
  unfold monthsDaysBetweenOf monthsDaysBetween
  simp only [number, Datum.quantity?, passes_int, wholeDays_int, bind, Except.bind]
  generalize (YearMonthDay.ofDayNumber b).monthIndex - (YearMonthDay.ofDayNumber a).monthIndex = months
  cases addMonths (YearMonthDay.ofDayNumber a) months with
  | error f => rfl
  | ok x =>
    simp only [Functor.map, Except.map, liftM, monadLift, monadLift_ok]
    by_cases hp : b < x.dayNumber ∨ (x.dayNumber = b ∧ n < m)
    · simp only [hp, decide_true, if_true]
      cases addMonths (YearMonthDay.ofDayNumber a) (months - 1) <;> rfl
    · simp only [hp, decide_false, if_false]
      rfl

end Calendar

namespace Date

/-- The date of a moved day. -/
def ofQuantity : Quantity → Except Error Date
  | .whole n => Calendar.dateAt n .dateOverflow
  | .fractional x => throw (.fault (.dateFieldNotInteger .dayNumber (.fractional x)))

theorem ofQuantity_dayNumber (d : Date) : ofQuantity (.whole d.dayNumber) = .ok d := by
  simp only [ofQuantity, Calendar.dateAt, ofDayNumber?_eq_some.mpr (rfl : d.dayNumber = d.dayNumber)]
  rfl

def addDaysOf (d : Date) (days : Datum) : Except Error Date := do
  ofQuantity (← Calendar.shiftOf (.int d.dayNumber) (.int 0) days)

def addMonthsOf (d : Date) (months : Datum) : Except Error Date := do
  ofQuantity (← Calendar.shiftOf (.int d.dayNumber) months (.int 0))

theorem addMonthsOf_int (d : Date) (n : Int) :
    d.addMonthsOf (.int n) = (d.addMonths n).mapError .fault := by
  unfold addMonthsOf addMonths shift
  rw [Calendar.shiftOf_int]
  cases Calendar.shift d.dayNumber n 0 with
  | error f => rfl
  | ok r => exact ofQuantity_dayNumber r

/-- Years count twelve months. -/
def addYearsOf (d : Date) (years : Datum) : Except Error Date :=
  match years.multiple? 12 with
  | some months => d.addMonthsOf months
  | none => throw .unsupported

end Date

end CivilTime
