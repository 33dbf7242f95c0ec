/- The months as a sequence of stretches of days, and what a move by months does to the day number. -/
import CivilTime.Calendar.Months
import CivilTime.Proofs.Calendar.DayNumber
import Mathlib.Data.Int.ConditionallyCompleteOrder
import Mathlib.Data.Int.LeastGreatest
import Mathlib.Order.SuccPred.LinearLocallyFinite

namespace CivilTime

namespace Calendar
open YearMonthDay

/-- The day number of the first day of a month. Months are counted from January of year 0. -/
def monthStart (index : Int) : Int :=
  dayNumber { year := index / 12, month := index % 12 + 1, day := 1 }

theorem dayNumber_march (year : Int) :
    dayNumber { year, month := 3, day := 1 } =
      dayNumber { year, month := 2, day := 1 } + monthLength year 2 := by
  have hl := leapDays_succ (year + 4799)
  have hy : year + 4799 + 1 = year + 4800 := by omega
  have h2 : (14 - 2 : Int) / 12 = 1 := by decide
  have h3 : (14 - 3 : Int) / 12 = 0 := by decide
  have e2 : year + 4800 - 1 = year + 4799 := by omega
  rw [hy, isLeapYear_add] at hl
  rw [monthLength_february, dayNumber_eq_march, dayNumber_eq_march]
  simp only [marchYear, marchDay, marchMonth]
  rw [h2, h3, e2, Int.sub_zero, hl]
  split <;> omega

theorem monthStart_succ (index : Int) :
    monthStart (index + 1) = monthStart index + monthLength (index / 12) (index % 12 + 1) := by
  obtain ⟨year, m, hm0, hm, rfl⟩ : ∃ year m : Int, 0 ≤ m ∧ m ≤ 11 ∧ index = 12 * year + m :=
    ⟨index / 12, index % 12, by omega, by omega, by omega⟩
  have hy : (12 * year + m) / 12 = year := by omega
  have hm' : (12 * year + m) % 12 = m := by omega
  by_cases h1 : m = 1
  · subst h1
    have hy' : (12 * year + 1 + 1) / 12 = year := by omega
    have hm'' : (12 * year + 1 + 1) % 12 = 2 := by omega
    simp only [monthStart, hy, hm', hy', hm'']
    exact dayNumber_march year
  · -- the years counted from March go on until February ends
    have hyear : marchYear { year := (12 * year + m + 1) / 12, month := (12 * year + m + 1) % 12 + 1, day := 1 } =
        marchYear { year, month := m + 1, day := 1 } := by
      simp only [marchYear]
      omega
    have hday : marchDay { year := (12 * year + m + 1) / 12, month := (12 * year + m + 1) % 12 + 1, day := 1 } =
        marchDay { year, month := m + 1, day := 1 } + commonMonthLength (m + 1) := by
      have hnext : (12 * year + m + 1) % 12 = (m + 1) % 12 := by omega
      simp only [marchDay, marchMonth, commonMonthLength, hnext]
      interval_cases m <;> first | rfl | exact absurd rfl h1
    rw [monthLength_of_ne (by omega), monthStart, monthStart, dayNumber_eq_march, hyear, hday, hy, hm',
      dayNumber_eq_march]
    omega

theorem monthStart_add_28_le (index : Int) : monthStart index + 28 ≤ monthStart (index + 1) := by
  have := monthLength_pos (index / 12) (index % 12 + 1)
  rw [monthStart_succ]
  omega

theorem monthStart_strictMono : StrictMono monthStart :=
  strictMono_int_of_lt_succ fun index => by
    have := monthStart_add_28_le index
    omega

theorem monthStart_add_le {i j : Int} (h : i ≤ j) : monthStart i + 28 * (j - i) ≤ monthStart j := by
  induction j, h using Int.leInduction with
  | base => omega
  | succ j hj ih =>
    have := monthStart_add_28_le j
    omega

theorem exists_monthStart_le (n : Int) : ∃ index, monthStart index ≤ n ∧ n < monthStart (index + 1) := by
  have hbdd : ∃ b, ∀ index, monthStart index ≤ n → index ≤ b := by
    refine ⟨max 0 (n - monthStart 0), fun index hi => ?_⟩
    by_contra hc
    have := monthStart_add_le (show 0 ≤ index by omega)
    omega
  have hne : ∃ index, monthStart index ≤ n := by
    refine ⟨min 0 (n - monthStart 0), ?_⟩
    have := monthStart_add_le (show min 0 (n - monthStart 0) ≤ 0 by omega)
    omega
  obtain ⟨index, hle, hmax⟩ := Int.exists_greatest_of_bdd hbdd hne
  refine ⟨index, hle, ?_⟩
  by_contra hc
  have := hmax (index + 1) (by omega)
  omega

end Calendar

namespace YearMonthDay
open Calendar

theorem monthIndex_div {d : YearMonthDay} (h : d.Exists) : d.monthIndex / 12 = d.year := by
  obtain ⟨h1, h12, -⟩ := h
  simp only [monthIndex]
  omega

theorem monthIndex_mod {d : YearMonthDay} (h : d.Exists) : d.monthIndex % 12 + 1 = d.month := by
  obtain ⟨h1, h12, -⟩ := h
  simp only [monthIndex]
  omega

theorem dayNumber_eq_monthStart {d : YearMonthDay} (h : d.Exists) :
    d.dayNumber = monthStart d.monthIndex + d.day - 1 := by
  simp only [monthStart, monthIndex_div h, monthIndex_mod h, dayNumber]
  omega

theorem monthStart_after {d : YearMonthDay} (h : d.Exists) :
    monthStart (d.monthIndex + 1) = monthStart d.monthIndex + monthLength d.year d.month := by
  rw [monthStart_succ, monthIndex_div h, monthIndex_mod h]

theorem dayNumber_bounds {d : YearMonthDay} (h : d.Exists) :
    monthStart d.monthIndex ≤ d.dayNumber ∧ d.dayNumber < monthStart (d.monthIndex + 1) := by
  have hn := dayNumber_eq_monthStart h
  have hs := monthStart_after h
  obtain ⟨-, -, hd1, hd⟩ := h
  omega

theorem exists_dayNumber_eq (n : Int) : ∃ d : YearMonthDay, d.Exists ∧ d.dayNumber = n := by
  obtain ⟨index, hle, hlt⟩ := exists_monthStart_le n
  rw [monthStart_succ] at hlt
  refine ⟨{ year := index / 12, month := index % 12 + 1, day := n - monthStart index + 1 }, ?_, ?_⟩
  · simp only [Exists]
    omega
  · simp only [monthStart, dayNumber]
    omega

theorem exists_ofDayNumber (n : Int) : (ofDayNumber n).Exists := by
  obtain ⟨d, hd, rfl⟩ := exists_dayNumber_eq n
  rw [ofDayNumber_dayNumber hd]
  exact hd

@[simp] theorem dayNumber_ofDayNumber (n : Int) : (ofDayNumber n).dayNumber = n := by
  obtain ⟨d, hd, rfl⟩ := exists_dayNumber_eq n
  rw [ofDayNumber_dayNumber hd]

theorem exists_addMonths {d : YearMonthDay} (h : d.Exists) (months : Int) : (d.addMonths months).Exists := by
  have hb := addMonths_month_bounds d months
  have hl := monthLength_pos (d.addMonths months).year (d.addMonths months).month
  refine ⟨hb.1, hb.2, ?_, ?_⟩
  · obtain ⟨-, -, hd1, -⟩ := h
    simp only [addMonths] at hl ⊢
    omega
  · simp only [addMonths]
    omega

theorem addMonths_zero {d : YearMonthDay} (h : d.Exists) : d.addMonths 0 = d := by
  have hy := monthIndex_div h
  have hm := monthIndex_mod h
  obtain ⟨-, -, -, hd⟩ := h
  simp only [addMonths, Int.add_zero, hy, hm, min_eq_left hd]

theorem dayNumber_addMonths {d : YearMonthDay} (h : d.Exists) (months : Int) :
    (d.addMonths months).dayNumber = monthStart (d.monthIndex + months) +
      min d.day (monthStart (d.monthIndex + months + 1) - monthStart (d.monthIndex + months)) - 1 := by
  have hs := monthStart_succ (d.monthIndex + months)
  have hl : monthStart (d.monthIndex + months + 1) - monthStart (d.monthIndex + months) =
      monthLength ((d.monthIndex + months) / 12) ((d.monthIndex + months) % 12 + 1) := by omega
  rw [dayNumber_eq_monthStart (exists_addMonths h months), addMonths_monthIndex, hl]
  simp only [addMonths]

/-- Another month leads at least as far as the shortest month is long. -/
theorem addMonths_add_28_le {d : YearMonthDay} (h : d.Exists) (months : Int) :
    (d.addMonths months).dayNumber + 28 ≤ (d.addMonths (months + 1)).dayNumber := by
  have h0 := monthStart_add_28_le (d.monthIndex + months)
  have h1 := monthStart_add_28_le (d.monthIndex + months + 1)
  rw [dayNumber_addMonths h, dayNumber_addMonths h, ← Int.add_assoc]
  omega

end YearMonthDay

namespace Calendar
open YearMonthDay

/-- A move by no months is one like any other. -/
theorem shifted_eq (n months days : Int) :
    shifted n months days = ((ofDayNumber n).addMonths months).dayNumber + days := by
  by_cases h : months = 0
  · rw [h, shifted_zero, addMonths_zero (exists_ofDayNumber n), dayNumber_ofDayNumber]
  · rw [shifted, if_neg h]

theorem shifted_add (n months days : Int) : shifted n months days = shifted n months 0 + days := by
  rw [shifted_eq, shifted_eq, Int.add_zero]

theorem shifted_add_28_le (n months : Int) : shifted n months 0 + 28 ≤ shifted n (months + 1) 0 := by
  have := addMonths_add_28_le (exists_ofDayNumber n) months
  rw [shifted_eq, shifted_eq]
  omega

theorem shifted_sub_one_le (n months : Int) : shifted n (months - 1) 0 + 28 ≤ shifted n months 0 := by
  have h := shifted_add_28_le n (months - 1)
  rwa [Int.sub_add_cancel] at h

theorem shifted_strictMono (n : Int) : StrictMono fun months => shifted n months 0 :=
  strictMono_int_of_lt_succ fun months => by
    have := shifted_add_28_le n months
    omega

theorem add_28_le_shifted {n m : Int} (h : 0 < m) : n + 28 ≤ shifted n m 0 := by
  have h1 := shifted_add_28_le n 0
  have h2 := (shifted_strictMono n).monotone (show 0 + 1 ≤ m by omega)
  simp only [shifted_zero, Int.add_zero] at h1 h2
  omega

theorem le_shifted {n m k : Int} (hm : 0 ≤ m) (hk : 0 ≤ k) : n ≤ shifted n m k := by
  have h := (shifted_strictMono n).monotone hm
  simp only [shifted_zero, Int.add_zero] at h
  rw [shifted_add]
  omega

theorem shifted_bounds (n months : Int) :
    monthStart ((ofDayNumber n).monthIndex + months) ≤ shifted n months 0 ∧
      shifted n months 0 < monthStart ((ofDayNumber n).monthIndex + months + 1) := by
  have := dayNumber_bounds (exists_addMonths (exists_ofDayNumber n) months)
  rw [addMonths_monthIndex] at this
  rw [shifted_eq, Int.add_zero]
  exact this

theorem monthStart_firstYear : monthStart (firstYear * 12) = firstDay := by decide

theorem monthStart_lastYear : monthStart (lastYear * 12 + 12) = lastDay + 1 := by decide

/-- The supported days are those of the supported years. -/
theorem year_bounds_iff {d : YearMonthDay} (h : d.Exists) :
    firstYear ≤ d.year ∧ d.year ≤ lastYear ↔ firstDay ≤ d.dayNumber ∧ d.dayNumber ≤ lastDay := by
  have hb := dayNumber_bounds h
  have hy := monthIndex_div h
  have hf : firstYear * 12 ≤ d.monthIndex ↔ firstDay ≤ monthStart d.monthIndex := by
    rw [← monthStart_firstYear, monthStart_strictMono.le_iff_le]
  have hf' : firstYear * 12 < d.monthIndex + 1 ↔ firstDay < monthStart (d.monthIndex + 1) := by
    rw [← monthStart_firstYear, monthStart_strictMono.lt_iff_lt]
  have hl : d.monthIndex < lastYear * 12 + 12 ↔ monthStart d.monthIndex < lastDay + 1 := by
    rw [← monthStart_lastYear, monthStart_strictMono.lt_iff_lt]
  have hl' : d.monthIndex + 1 ≤ lastYear * 12 + 12 ↔ monthStart (d.monthIndex + 1) ≤ lastDay + 1 := by
    rw [← monthStart_lastYear, monthStart_strictMono.le_iff_le]
  simp only [firstYear, lastYear] at *
  omega

end Calendar

end CivilTime
