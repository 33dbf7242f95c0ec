/- The two formulas for day numbers are inverse to each other on the days that exist. -/
import CivilTime.Calendar.DayNumber
import Mathlib.Tactic.ByContra
import Mathlib.Tactic.IntervalCases

namespace CivilTime

namespace Calendar

/-- Leap days up to the end of a year. -/
def leapDays (year : Int) : Int := year / 4 - year / 100 + year / 400

theorem leapDays_succ (year : Int) :
    leapDays (year + 1) = leapDays year + if isLeapYear (year + 1) then 1 else 0 := by
  have h4 : (year + 1) / 4 = year / 4 + if (year + 1) % 4 = 0 then 1 else 0 := by omega
  have h100 : (year + 1) / 100 = year / 100 + if (year + 1) % 100 = 0 then 1 else 0 := by omega
  have h400 : (year + 1) / 400 = year / 400 + if (year + 1) % 400 = 0 then 1 else 0 := by omega
  simp only [leapDays, isLeapYear_iff, h4, h100, h400]
  by_cases d4 : (year + 1) % 4 = 0
  · by_cases d100 : (year + 1) % 100 = 0
    · by_cases d400 : (year + 1) % 400 = 0
      · simp only [d4, d100, d400, if_true, not_true, false_or, and_true, ne_eq]
        omega
      · simp only [d4, d100, d400, if_true, if_false, not_true, false_or, and_false, ne_eq]
        omega
    · have d400 : ¬(year + 1) % 400 = 0 := by omega
      simp only [d4, d100, d400, if_true, if_false, not_false_eq_true, true_or, and_true, ne_eq]
      omega
  · have d100 : ¬(year + 1) % 100 = 0 := by omega
    have d400 : ¬(year + 1) % 400 = 0 := by omega
    simp only [d4, d100, d400, if_false, false_and, Int.add_zero]

theorem isLeapYear_add (year : Int) : isLeapYear (year + 4800) = isLeapYear year := by
  have h4 : (year + 4800) % 4 = year % 4 := by omega
  have h100 : (year + 4800) % 100 = year % 100 := by omega
  have h400 : (year + 4800) % 400 = year % 400 := by omega
  simp only [isLeapYear, h4, h100, h400]

theorem monthLength_of_ne {year month : Int} (h : month ≠ 2) :
    monthLength year month = commonMonthLength month := by
  rw [monthLength, if_neg fun hc => h hc.1]

theorem monthLength_february (year : Int) :
    monthLength year 2 = if isLeapYear year then 29 else 28 := by
  simp [monthLength, commonMonthLength]

/-- A century has 36524 days, and every fourth one, which ends with a leap day, has one more. -/
theorem day_of_century_le {year day : Int} (h : day ≤ if isLeapYear (year + 1) then 365 else 364) :
    365 * (year % 100) + year % 100 / 4 + day ≤ if year % 400 / 100 = 3 then 36524 else 36523 := by
  have hl := isLeapYear_iff (year + 1)
  by_cases hr : year % 100 = 99
  · rw [hr]
    by_cases hb : year % 400 / 100 = 3
    · rw [if_pos hb]
      split at h <;> omega
    · have hn : ¬isLeapYear (year + 1) := by
        rw [hl]
        omega
      rw [if_neg hn] at h
      rw [if_neg hb]
      omega
  · have hd : day ≤ 365 := by
      split at h <;> omega
    split <;> omega

theorem skippedLeapDays_of_century {q b s : Int} (hb0 : 0 ≤ b) (hb3 : b ≤ 3) (hs0 : 0 ≤ s)
    (hs : s ≤ if b = 3 then 36524 else 36523) :
    (4 * (146097 * q + 36524 * b + s) + 146101) / 146097 * 3 / 4 = 3 * q + b := by
  by_cases hlast : s = 36524
  · have hb : b = 3 := by
      by_contra hb
      rw [if_neg hb] at hs
      omega
    have hc : (4 * (146097 * q + 36524 * b + s) + 146101) / 146097 = 4 * q + 5 := by omega
    rw [hc]
    omega
  · have hs : s ≤ 36523 := by
      split at hs <;> omega
    have hc : (4 * (146097 * q + 36524 * b + s) + 146101) / 146097 = 4 * q + b + 1 := by omega
    rw [hc]
    omega

/-- What the formula for calendar days adds are the centuries before a year that were no leap years. -/
theorem skippedLeapDays_of_day {year day : Int} (h0 : 0 ≤ day)
    (h : day ≤ if isLeapYear (year + 1) then 365 else 364) :
    (4 * (365 * year + leapDays year + day) + 146101) / 146097 * 3 / 4 = year / 100 - year / 400 := by
  have hs := day_of_century_le h
  have hn : 365 * year + leapDays year + day = 146097 * (year / 400) + 36524 * (year % 400 / 100) +
      (365 * (year % 100) + year % 100 / 4 + day) := by
    simp only [leapDays]
    omega
  rw [hn, skippedLeapDays_of_century (by omega) (by omega) (by omega) hs]
  omega

/-- With the centuries added every fourth year has a leap day, the last one of its year. -/
theorem julianDay_div {year day : Int} (h0 : 0 ≤ day) (h : day ≤ if year % 4 = 3 then 365 else 364) :
    (4 * (365 * year + year / 4 + day) + 3) / 1461 = year ∧
      (4 * (365 * year + year / 4 + day) + 3) % 1461 / 4 = day := by
  have hn : 4 * (365 * year + year / 4 + day) + 3 = 1461 * year + (4 * day + 3 - year % 4) := by omega
  have hd : 0 ≤ 4 * day + 3 - year % 4 ∧ 4 * day + 3 - year % 4 < 1461 := by
    split at h <;> omega
  rw [hn]
  constructor
  · omega
  · have hm : (1461 * year + (4 * day + 3 - year % 4)) % 1461 = 4 * day + 3 - year % 4 := by omega
    rw [hm]
    omega

end Calendar

namespace YearMonthDay
open Calendar

/-- The year counted from the March before, so that its leap day is its last day. -/
def marchYear (d : YearMonthDay) : Int := d.year + 4800 - (14 - d.month) / 12

/-- The month counted from March, from 0. -/
def marchMonth (d : YearMonthDay) : Int := d.month + 12 * ((14 - d.month) / 12) - 3

/-- The place of the day in its year from March, from 0. -/
def marchDay (d : YearMonthDay) : Int := (153 * d.marchMonth + 2) / 5 + d.day - 1

theorem dayNumber_eq_march (d : YearMonthDay) :
    d.dayNumber = 365 * d.marchYear + leapDays d.marchYear + d.marchDay - 32044 := by
  simp only [dayNumber, marchDay, marchMonth, marchYear, leapDays]
  omega

theorem marchDay_nonneg {d : YearMonthDay} (h : d.Exists) : 0 ≤ d.marchDay := by
  obtain ⟨h1, h12, hd1, -⟩ := h
  simp only [marchDay, marchMonth]
  omega

theorem marchDay_le {d : YearMonthDay} (h : d.Exists) :
    d.marchDay ≤ if isLeapYear (d.marchYear + 1) then 365 else 364 := by
  obtain ⟨year, month, day⟩ := d
  obtain ⟨h1, h12, -, hd⟩ := h
  simp only at h1 h12 hd
  by_cases hm : month = 2
  · subst hm
    have hy : year + 4800 - (14 - 2) / 12 + 1 = year + 4800 := by omega
    rw [monthLength_february] at hd
    simp only [marchDay, marchMonth, marchYear, hy, isLeapYear_add]
    by_cases hl : isLeapYear year
    · rw [if_pos hl] at hd ⊢
      omega
    · rw [if_neg hl] at hd ⊢
      omega
  · have hle : marchDay { year, month, day } ≤ 364 := by
      rw [monthLength_of_ne hm, commonMonthLength, if_neg hm] at hd
      simp only [marchDay, marchMonth]
      split at hd <;> omega
    split <;> omega

theorem marchDay_div {d : YearMonthDay} (h : d.Exists) :
    (5 * d.marchDay + 2) / 153 = d.marchMonth ∧ (5 * d.marchDay + 2) % 153 / 5 + 1 = d.day := by
  obtain ⟨year, month, day⟩ := d
  obtain ⟨h1, h12, hd1, hd⟩ := h
  simp only at h1 h12 hd1 hd
  have hday : day ≤ if month = 2 ∨ month = 4 ∨ month = 6 ∨ month = 9 ∨ month = 11 then 30 else 31 := by
    by_cases hm : month = 2
    · subst hm
      rw [monthLength_february] at hd
      rw [if_pos (Or.inl rfl)]
      split at hd <;> omega
    · rw [monthLength_of_ne hm, commonMonthLength, if_neg hm] at hd
      simpa only [hm, false_or] using hd
  simp only [marchDay, marchMonth]
  interval_cases month <;> simp at hday <;> omega

theorem ofDayNumber_dayNumber {d : YearMonthDay} (h : d.Exists) : ofDayNumber d.dayNumber = d := by
  have h0 := marchDay_nonneg h
  have hle := marchDay_le h
  have hf : d.dayNumber + 1401 + (4 * d.dayNumber + 274277) / 146097 * 3 / 4 - 38 =
      365 * (d.marchYear - 84) + (d.marchYear - 84) / 4 + d.marchDay := by
    have hs := skippedLeapDays_of_day h0 hle
    have hn := dayNumber_eq_march d
    have hc : 4 * d.dayNumber + 274277 =
        4 * (365 * d.marchYear + leapDays d.marchYear + d.marchDay) + 146101 := by omega
    rw [hc, hs, hn, leapDays]
    omega
  have hj : d.marchDay ≤ if (d.marchYear - 84) % 4 = 3 then 365 else 364 := by
    by_cases hl : isLeapYear (d.marchYear + 1)
    · have h4 := ((isLeapYear_iff _).mp hl).1
      rw [if_pos hl] at hle
      rw [if_pos (by omega)]
      exact hle
    · rw [if_neg hl] at hle
      split <;> omega
  obtain ⟨hy, hd⟩ := julianDay_div h0 hj
  obtain ⟨hm, hday⟩ := marchDay_div h
  have hmonth : (d.marchMonth + 2) % 12 + 1 = d.month := by
    obtain ⟨h1, h12, -⟩ := h
    simp only [marchMonth]
    omega
  have hyear : d.marchYear - 84 - 4716 + (14 - d.month) / 12 = d.year := by
    simp only [marchYear]
    omega
  simp only [ofDayNumber, hf, hy, hd, hm, hday, hmonth, hyear]

end YearMonthDay

end CivilTime
