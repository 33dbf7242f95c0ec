/- The lengths of months and years, the place of a day in its year and the days of the week agree with day numbers. -/
import CivilTime.Calendar.Unchecked
import CivilTime.Proofs.Calendar.Order

namespace CivilTime

theorem Weekday.number_ofDayNumber (n : Int) : (Weekday.ofDayNumber n).number = Calendar.weekdayNumber n := by
  have hrange : 0 ≤ n % 7 ∧ n % 7 < 7 := by omega
  unfold Weekday.ofDayNumber Calendar.weekdayNumber
  generalize n % 7 = k at hrange
  obtain ⟨h0, h7⟩ := hrange
  interval_cases k <;> rfl

namespace YearMonthDay
open Calendar

/-- The first day of the month after that of a day. -/
def nextMonth (x : YearMonthDay) : YearMonthDay :=
  if x.month < 12 then { year := x.year, month := x.month + 1, day := 1 }
  else { year := x.year + 1, month := 1, day := 1 }

variable {x : YearMonthDay} {year month : Int}

theorem exists_nextMonth (h : x.Exists) : x.nextMonth.Exists := by
  unfold nextMonth
  split
  · rename_i hm
    exact exists_first x.year (x.month + 1) (Int.le_add_one h.1) hm
  · exact exists_first (x.year + 1) 1 (by decide) (by decide)

theorem monthIndex_nextMonth (h : x.Exists) : x.nextMonth.monthIndex = x.monthIndex + 1 := by
  obtain ⟨-, h12, -⟩ := h
  unfold nextMonth
  split
  · simp only [monthIndex]
    omega
  · simp only [monthIndex]
    omega

/-- The length of a month is the distance of its first day from that of the next one. -/
theorem dayNumber_nextMonth (h : x.Exists) (hday : x.day = 1) :
    x.nextMonth.dayNumber = x.dayNumber + monthLength x.year x.month := by
  have hnext : x.nextMonth.day = 1 := by
    unfold nextMonth
    split <;> rfl
  rw [dayNumber_eq_monthStart (exists_nextMonth h), dayNumber_eq_monthStart h, monthIndex_nextMonth h,
    monthStart_after h, hday, hnext]
  omega

theorem daysBeforeMonth_succ (h1 : 1 ≤ month) (h12 : month < 12) :
    daysBeforeMonth (month + 1) = daysBeforeMonth month + commonMonthLength month := by
  interval_cases month <;> rfl

theorem dayOfYear_first_succ (year : Int) (h1 : 1 ≤ month) (h12 : month < 12) :
    dayOfYear { year, month := month + 1, day := 1 } =
      dayOfYear { year, month, day := 1 } + monthLength year month := by
  have hbefore := daysBeforeMonth_succ h1 h12
  simp only [dayOfYear, hbefore]
  -- The leap day is counted from March on, and February is longer by it.
  rcases Int.lt_trichotomy month 2 with hm | rfl | hm
  · rw [monthLength_of_ne (by omega), if_neg (by omega), if_neg (by omega)]
    omega
  · rw [monthLength_february]
    cases isLeapYear year <;> rfl
  · rw [monthLength_of_ne (by omega)]
    simp only [hm, true_and, show 2 < month + 1 by omega]
    omega

/-- By induction on the month: place in the year and day number grow by the same lengths. -/
theorem dayOfYear_first (year : Int) (h1 : 1 ≤ month) (h12 : month ≤ 12) :
    dayOfYear { year, month, day := 1 } =
      dayNumber { year, month, day := 1 } - dayNumber { year, month := 1, day := 1 } + 1 := by
  induction month, h1 using Int.leInduction with
  | base =>
    rw [Int.sub_self]
    rfl
  | succ month hm ih =>
    have hlt : month < 12 := by omega
    have hnext : dayNumber { year, month := month + 1, day := 1 } =
        dayNumber { year, month, day := 1 } + monthLength year month := by
      have hlength := dayNumber_nextMonth (exists_first year month hm (by omega)) rfl
      rwa [nextMonth, if_pos hlt] at hlength
    rw [dayOfYear_first_succ year hm hlt, hnext, ih (by omega)]
    omega

theorem dayOfYear_eq (h : x.Exists) :
    x.dayOfYear = x.dayNumber - dayNumber { year := x.year, month := 1, day := 1 } + 1 := by
  have hfirst := dayOfYear_first x.year h.1 h.2.1
  have hplace : x.dayOfYear = dayOfYear { x with day := 1 } + (x.day - 1) := by
    simp only [dayOfYear]
    omega
  have hnumber : x.dayNumber = dayNumber { x with day := 1 } + (x.day - 1) := by
    simp only [dayNumber]
    omega
  rw [hplace, hnumber, hfirst]
  omega

theorem dayOfYear_last (year : Int) : dayOfYear { year, month := 12, day := 31 } = daysInYear year := by
  unfold dayOfYear daysInYear
  cases isLeapYear year <;> rfl

end YearMonthDay

namespace Calendar
open YearMonthDay

/-- The numbers of the months. -/
def months : List Int := [1, 2, 3, 4, 5, 6, 7, 8, 9, 10, 11, 12]

theorem sum_monthLength (year : Int) : (months.map (monthLength year)).sum = daysInYear year := by
  unfold monthLength daysInYear
  cases isLeapYear year <;> rfl

theorem weekdayNumber_succ (n : Int) : weekdayNumber (n + 1) = weekdayNumber n % 7 + 1 := by
  simp only [weekdayNumber]
  omega

theorem weekdayNumber_eq_iff {m n : Int} : weekdayNumber m = weekdayNumber n ↔ 7 ∣ m - n := by
  simp only [weekdayNumber]
  omega

/-- The ISO number of the day of the week of a supported day, from its year, month and day. -/
def weekdayOfDay (x : YearMonthDay) : Except Fault Int := (·.weekday.number) <$> Date.ofYmd x.year x.month x.day

variable {x : YearMonthDay} {n : Int}

theorem numberOfDay_supported (h : x ∈ supportedDays) : numberOfDay x = .ok x.dayNumber := by
  obtain ⟨d, rfl⟩ := Date.exists_ymd_eq_iff.mpr h
  exact numberOfDay_eq_ok.mpr ⟨d, rfl, d.dayNumber_ymd.symm⟩

theorem numberOfDay_eq_ok_iff : numberOfDay x = .ok n ↔ x ∈ supportedDays ∧ n = x.dayNumber := by
  constructor
  · intro h
    have hx := exists_numberOfDay_iff.mp ⟨n, h⟩
    rw [numberOfDay_supported hx] at h
    cases h
    exact ⟨hx, rfl⟩
  · rintro ⟨hx, rfl⟩
    exact numberOfDay_supported hx

theorem weekdayOfDay_supported (h : x ∈ supportedDays) : weekdayOfDay x = .ok (weekdayNumber x.dayNumber) := by
  obtain ⟨d, rfl⟩ := Date.exists_ymd_eq_iff.mpr h
  refine map_eq_ok.mpr ⟨d, d.ofYmd_fields, ?_⟩
  rw [d.dayNumber_ymd]
  exact Weekday.number_ofDayNumber d.dayNumber

theorem daysInMonth_int {year month : Int} (hyear : 1 ≤ year ∧ year ≤ 9999) (hmonth : 1 ≤ month ∧ month ≤ 12) :
    daysInMonth (.int year) (.int month) = .ok (monthLength year month) := by
  have hy : checkYear year = .ok () := if_pos hyear
  have hm : checkMonth month = .ok () := if_pos hmonth
  show (checkYear year >>= fun _ => checkMonth month >>= fun _ => .ok (monthLength year month)) = _
  rw [hy, hm]
  rfl

theorem supported_first (h : x ∈ supportedDays) : { x with day := 1 } ∈ supportedDays :=
  ⟨h.1, exists_first x.year x.month h.2.1 h.2.2.1⟩

theorem supported_newYear (h : x ∈ supportedDays) : { year := x.year, month := 1, day := 1 } ∈ supportedDays :=
  ⟨h.1, exists_first x.year 1 (by decide) (by decide)⟩

/-- Only after the last supported month none follows. -/
theorem supported_nextMonth (h : x ∈ supportedDays) (hlast : ¬(x.year = 9999 ∧ x.month = 12)) :
    x.nextMonth ∈ supportedDays := by
  refine ⟨?_, exists_nextMonth h.2⟩
  obtain ⟨⟨hfirst, hle⟩, -, h12, -⟩ := h
  unfold nextMonth
  split
  · exact ⟨hfirst, hle⟩
  · simp only
    omega

theorem monthLength_of_last (hyear : x.year = 9999) (hmonth : x.month = 12) :
    dayNumber { x with day := 1 } + monthLength x.year x.month = lastDay + 1 := by
  rw [hyear, hmonth]
  rfl

/-- For a supported day its place in the year is that of its number after the number of the first day, and the length
of its month the distance of the numbers of the first days of that month and the next. The lengths of the months add up
to that of the year, which is the place of its last day. Weekdays are numbered from 1 to 7 and follow each other in a
circle, and they are the same for days apart by whole weeks and no others. -/
theorem tables_agree_with_day_numbers :
    (∀ x ∈ supportedDays, ∃ n newYear first length : Int,
      (numberOfDay x = .ok n ∧ numberOfDay { year := x.year, month := 1, day := 1 } = .ok newYear ∧
        dayOfYearOf (.int x.year) (.int x.month) (.int x.day) = .ok (.whole (n - newYear + 1))) ∧
      numberOfDay { x with day := 1 } = .ok first ∧ daysInMonth (.int x.year) (.int x.month) = .ok length ∧
      if x.year = 9999 ∧ x.month = 12 then first + length = lastDay + 1
      else numberOfDay x.nextMonth = .ok (first + length)) ∧
    (∀ year ∈ Set.Icc 1 9999, ∃ length : Int → Int,
      (∀ month ∈ Set.Icc 1 12, daysInMonth (.int year) (.int month) = .ok (length month)) ∧
      daysInYearOf (.int year) = .ok (months.map length).sum ∧
      dayOfYearOf (.int year) (.int 12) (.int 31) = .ok (.whole (months.map length).sum)) ∧
    (∀ x ∈ supportedDays, ∃ w ∈ Set.Icc 1 7, weekdayOfDay x = .ok w ∧
      (x.next ∈ supportedDays → weekdayOfDay x.next = .ok (w % 7 + 1))) ∧
    (∀ x y m n, numberOfDay x = .ok m → numberOfDay y = .ok n →
      (weekdayOfDay x = weekdayOfDay y ↔ 7 ∣ m - n)) ∧
    weekdayOfDay { year := 2000, month := 1, day := 1 } = .ok 6 := by
  refine ⟨fun x hx => ?_, fun year hyear => ?_, fun x hx => ?_, fun x y m n hm hn => ?_, rfl⟩
  · have hplace := dayOfYearOf_int hx.2.1 hx.2.2.1 x.year x.day
    rw [dayOfYear_eq hx.2] at hplace
    refine ⟨_, _, _, _, ⟨numberOfDay_supported hx, numberOfDay_supported (supported_newYear hx), hplace⟩,
      numberOfDay_supported (supported_first hx), daysInMonth_int hx.1 ⟨hx.2.1, hx.2.2.1⟩, ?_⟩
    split
    · rename_i hlast
      exact monthLength_of_last hlast.1 hlast.2
    · rename_i hlast
      have hfirst := supported_first hx
      rw [← dayNumber_nextMonth hfirst.2 rfl]
      exact numberOfDay_supported (supported_nextMonth hx hlast)
  · have hplace := dayOfYearOf_int (show (1 : Int) ≤ 12 by decide) (by decide) year 31
    rw [dayOfYear_last, ← sum_monthLength] at hplace
    refine ⟨monthLength year, fun month hmonth => daysInMonth_int hyear hmonth, ?_, hplace⟩
    rw [daysInYearOf_int, sum_monthLength]
  · refine ⟨_, weekdayNumber_bounds x.dayNumber, weekdayOfDay_supported hx, fun hnext => ?_⟩
    rw [weekdayOfDay_supported hnext, dayNumber_next hx.2, weekdayNumber_succ]
  · obtain ⟨hx, rfl⟩ := numberOfDay_eq_ok_iff.mp hm
    obtain ⟨hy, rfl⟩ := numberOfDay_eq_ok_iff.mp hn
    rw [weekdayOfDay_supported hx, weekdayOfDay_supported hy, Except.ok.injEq]
    exact weekdayNumber_eq_iff

/-- The leap day of 2000 and the day after, the last month of all, and a Saturday one week before another. -/
theorem tables_agree_with_day_numbers_on_leap_day :
    let leapDay : YearMonthDay := ⟨2000, 2, 29⟩
    let last : YearMonthDay := ⟨9999, 12, 31⟩
    (leapDay ∈ supportedDays ∧ leapDay.next ∈ supportedDays ∧ last ∈ supportedDays) ∧
      dayOfYearOf (.int 2000) (.int 2) (.int 29) = .ok (.whole (2451604 - 2451545 + 1)) ∧
      (∃ first length, numberOfDay { last with day := 1 } = .ok first ∧
        daysInMonth (.int 9999) (.int 12) = .ok length ∧ first + length = lastDay + 1) ∧
      (∃ length : Int → Int, daysInMonth (.int 2000) (.int 2) = .ok (length 2) ∧
        daysInYearOf (.int 2000) = .ok (months.map length).sum) ∧
      (∃ w ∈ Set.Icc 1 7, weekdayOfDay leapDay = .ok w ∧ weekdayOfDay leapDay.next = .ok (w % 7 + 1)) ∧
      weekdayOfDay ⟨2000, 1, 8⟩ = weekdayOfDay ⟨2000, 1, 1⟩ := by
  intro leapDay last
  have hleap : leapDay ∈ supportedDays := ⟨by decide, by decide⟩
  have hnext : leapDay.next ∈ supportedDays := ⟨by decide, by decide⟩
  have hlast : last ∈ supportedDays := ⟨by decide, by decide⟩
  obtain ⟨hday, hyear, hweekday, hweek, -⟩ := tables_agree_with_day_numbers
  obtain ⟨n, newYear, -, -, ⟨hn, hnewYear, hplace⟩, -⟩ := hday leapDay hleap
  cases hn
  cases hnewYear
  obtain ⟨-, -, first, length, -, hfirst, hlength, hsum⟩ := hday last hlast
  obtain ⟨lengths, hlengths, htotal, -⟩ := hyear 2000 ⟨by decide, by decide⟩
  obtain ⟨w, hw, hshown, hfollows⟩ := hweekday leapDay hleap
  exact ⟨⟨hleap, hnext, hlast⟩, hplace, ⟨first, length, hfirst, hlength, hsum⟩,
    ⟨lengths, hlengths 2 ⟨by decide, by decide⟩, htotal⟩, ⟨w, hw, hshown, hfollows hnext⟩,
    (hweek ⟨2000, 1, 8⟩ ⟨2000, 1, 1⟩ 2451552 2451545 rfl rfl).mpr (by decide)⟩

end Calendar

end CivilTime
