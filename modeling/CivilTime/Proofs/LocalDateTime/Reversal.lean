/- When a subtraction undoes an addition: always if there are no months, and if there are no days as long as the day of
month was kept. -/
import CivilTime.Proofs.Iso8601.Fields
import CivilTime.Proofs.LocalDateTime.Range
import CivilTime.Value.Order

namespace CivilTime

open Calendar

namespace YearMonthDay

/-- The month at the distance has the day of month. -/
def HasDayAt (x : YearMonthDay) (months : Int) : Prop :=
  ∃ t : YearMonthDay, t.Exists ∧ t.monthIndex = x.monthIndex + months ∧ t.day = x.day

/-- The same month with the day of month that the month at the distance takes. -/
def clamped (x : YearMonthDay) (months : Int) : YearMonthDay := { x with day := (x.addMonths months).day }

variable {x : YearMonthDay} {months : Int}

theorem exists_clamped (h : x.Exists) (months : Int) : (x.clamped months).Exists :=
  ⟨h.1, h.2.1, (exists_addMonths h months).2.2.1, (addMonths_day_le x months).trans h.2.2.2⟩

theorem clamped_eq_iff (h : x.Exists) : x.clamped months = x ↔ x.HasDayAt months := by
  constructor
  · intro hx
    have hday : (x.clamped months).day = x.day := by rw [hx]
    exact ⟨x.addMonths months, exists_addMonths h months, addMonths_monthIndex x months, hday⟩
  · rintro ⟨t, ht, hindex, hday⟩
    have hyear := monthIndex_div ht
    have hmonth := monthIndex_mod ht
    have hle := ht.2.2.2
    rw [hindex] at hyear hmonth
    rw [clamped, addMonths, hyear, hmonth, ← hday, min_eq_left hle, hday]

/-- The way back ends in the month of the start. -/
theorem addMonths_neg (h : x.Exists) : (x.addMonths months).addMonths (-months) = x.clamped months := by
  have hindex : (x.addMonths months).monthIndex + -months = x.monthIndex := by
    rw [addMonths_monthIndex]
    omega
  have hday := (addMonths_day_le x months).trans h.2.2.2
  rw [addMonths, hindex, monthIndex_div h, monthIndex_mod h, min_eq_left hday, clamped]

theorem dayNumber_clamped (x : YearMonthDay) (months : Int) :
    (x.clamped months).dayNumber = x.dayNumber - (x.day - (x.addMonths months).day) := by
  simp only [clamped, dayNumber]
  omega

/-- What is taken in place of a day is the end of a month. -/
theorem addMonths_day_eq_or (x : YearMonthDay) (months : Int) :
    (x.addMonths months).day = x.day ∨ 28 ≤ (x.addMonths months).day := by
  have h := monthLength_pos ((x.monthIndex + months) / 12) ((x.monthIndex + months) % 12 + 1)
  simp only [addMonths]
  omega

end YearMonthDay

namespace Date

theorem ymd_eq_iff {d : Date} {x : YearMonthDay} (h : x.Exists) : d.ymd = x ↔ d.dayNumber = x.dayNumber := by
  constructor
  · rintro rfl
    exact d.dayNumber_ymd.symm
  · intro hday
    rw [ymd, hday, YearMonthDay.ofDayNumber_dayNumber h]

theorem ext_ymd {d e : Date} (h : d.ymd = e.ymd) : d = e := by
  apply ext_dayNumber
  rw [← d.dayNumber_ymd, h, e.dayNumber_ymd]

/-- Before a day there are the other days of its month. -/
theorem firstDay_add_le (d : Date) : firstDay + d.day ≤ d.dayNumber + 1 := by
  have hyear := d.year_bounds.1
  have hmonth := d.month_bounds.1
  have hindex : firstYear * 12 ≤ d.ymd.monthIndex := by
    simp only [year, month, firstYear, YearMonthDay.monthIndex] at *
    omega
  have hstart := monthStart_strictMono.monotone hindex
  have hday := YearMonthDay.dayNumber_eq_monthStart d.exists_ymd
  rw [d.dayNumber_ymd] at hday
  rw [monthStart_firstYear] at hstart
  simp only [day]
  omega

theorem shifted_back (d : Date) (months : Int) :
    shifted (shifted d.dayNumber months 0) (-months) 0 = (d.ymd.clamped months).dayNumber := by
  have hmoved := YearMonthDay.exists_addMonths d.exists_ymd months
  rw [shifted_eq d.dayNumber, Int.add_zero, ← ymd, shifted_eq, Int.add_zero, YearMonthDay.ofDayNumber_dayNumber hmoved,
    YearMonthDay.addMonths_neg d.exists_ymd]

end Date

namespace LocalDateTime
open TimeLine

variable {x y z : LocalDateTime} {d : Duration}

theorem subtract_of_add (h : x.add d = .ok y) : y.subtract d = .ok z ↔
    z.date.dayNumber = shifted (shifted x.date.dayNumber d.months d.days) (-d.months) (-d.days) ∧ z.time = x.time := by
  have hback : added x.epochNanos d - d.nanos = moveDay x.epochNanos d.months d.days := Int.add_sub_cancel _ _
  have htime : moveDay x.epochNanos d.months d.days % nanosPerDay = x.time.nanos := by
    rw [← epochNanos_emod, moveDay]
    simp only [nanosPerDay]
    omega
  rw [subtract_eq_ok_iff, add_eq_ok_iff.mp h, subtracted, hback, moveDay, day_moveDay, day_epochNanos, htime,
    epochNanos_eq_iff]

theorem subtract_of_add_without_months (h : x.add d = .ok y) (hmonths : d.months = 0) : y.subtract d = .ok x := by
  refine (subtract_of_add h).mpr ⟨?_, rfl⟩
  rw [hmonths, Int.neg_zero, shifted_zero, shifted_zero]
  omega

/-- The time comes back, and the date as far as the day of month was kept. -/
theorem subtract_of_add_without_days (h : x.add d = .ok y) (hdays : d.days = 0) :
    y.subtract d = .ok z ↔ z.date.ymd = x.date.ymd.clamped d.months ∧ z.time = x.time := by
  rw [subtract_of_add h, hdays, Int.neg_zero, x.date.shifted_back,
    Date.ymd_eq_iff (YearMonthDay.exists_clamped x.date.exists_ymd d.months)]

theorem exists_subtract_of_add (h : x.add d = .ok y) (hdays : d.days = 0) : ∃ z, y.subtract d = .ok z := by
  have hyear : 1 ≤ (x.date.ymd.clamped d.months).year ∧ (x.date.ymd.clamped d.months).year ≤ 9999 := x.date.year_bounds
  have hclamped := YearMonthDay.exists_clamped x.date.exists_ymd d.months
  obtain ⟨date, hdate⟩ := Date.exists_ymd_eq_iff.mpr ⟨hyear, hclamped⟩
  exact ⟨⟨date, x.time⟩, (subtract_of_add_without_days h hdays).mpr ⟨hdate, rfl⟩⟩

theorem eq_iff_hasDayAt (h : x.add d = .ok y) (hdays : d.days = 0) (hz : y.subtract d = .ok z) :
    z = x ↔ x.date.ymd.HasDayAt d.months := by
  obtain ⟨hdate, htime⟩ := (subtract_of_add_without_days h hdays).mp hz
  rw [← YearMonthDay.clamped_eq_iff x.date.exists_ymd, ← hdate]
  constructor
  · rintro rfl
    rfl
  · exact fun hymd => ext_date_time (Date.ext_ymd hymd) htime

/-- A reading that comes back earlier is late in its month. -/
theorem epochNanos_bounds_of_subtract (h : x.add d = .ok y) (hdays : d.days = 0) (hz : y.subtract d = .ok z) :
    z.epochNanos ≤ x.epochNanos ∧ (z = x ∨ Instant.firstNanos + nanosPerDay ≤ z.epochNanos) := by
  obtain ⟨hymd, htime⟩ := (subtract_of_add_without_days h hdays).mp hz
  have hdate : z.date.dayNumber = x.date.dayNumber - (x.date.ymd.day - (x.date.ymd.addMonths d.months).day) := by
    rw [← z.date.dayNumber_ymd, hymd, YearMonthDay.dayNumber_clamped, x.date.dayNumber_ymd]
  have hsub := epochNanos_sub_of_time_eq htime
  constructor
  · have hle := YearMonthDay.addMonths_day_le x.date.ymd d.months
    simp only [nanosPerDay] at hsub
    omega
  · rcases YearMonthDay.addMonths_day_eq_or x.date.ymd d.months with hday | hday
    · exact Or.inl (ext_date_time (Date.ext_dayNumber (by omega)) htime)
    · have hz28 : z.date.day = (x.date.ymd.addMonths d.months).day := by
        rw [Date.day, hymd]
        rfl
      have hfirst := z.date.firstDay_add_le
      have htime0 := z.time.nonneg
      refine Or.inr ?_
      simp only [Instant.firstNanos, epochNanos, nanosPerDay]
      omega

end LocalDateTime

namespace OffsetDateTime

variable {x y z : OffsetDateTime} {d : Duration}

theorem add_eq_ok : x.add d = .ok y ↔ x.wall.add d = .ok y.wall ∧ y.offset = x.offset := by
  simp only [add, bind_eq_ok, of_eq_ok]
  constructor
  · rintro ⟨wall, hwall, rfl, hoffset⟩
    exact ⟨hwall, hoffset⟩
  · rintro ⟨hwall, hoffset⟩
    exact ⟨y.wall, hwall, rfl, hoffset⟩

theorem subtract_eq_ok : x.subtract d = .ok y ↔ x.wall.subtract d = .ok y.wall ∧ y.offset = x.offset := by
  simp only [subtract, bind_eq_ok, of_eq_ok]
  constructor
  · rintro ⟨wall, hwall, rfl, hoffset⟩
    exact ⟨hwall, hoffset⟩
  · rintro ⟨hwall, hoffset⟩
    exact ⟨y.wall, hwall, rfl, hoffset⟩

/-- A day is left before a reading that was moved back, so its instant is in range. -/
theorem exists_subtract_of_add (h : x.add d = .ok y) (hdays : d.days = 0) : ∃ z, y.subtract d = .ok z := by
  obtain ⟨hadd, hoffset⟩ := add_eq_ok.mp h
  obtain ⟨w, hw⟩ := LocalDateTime.exists_subtract_of_add hadd hdays
  obtain ⟨hle, hfirst⟩ := LocalDateTime.epochNanos_bounds_of_subtract hadd hdays hw
  have hlow := x.firstNanos_le
  have hhigh := x.le_lastNanos
  have hbounds := x.offset.nanos_bounds
  have hrange : Instant.firstNanos ≤ w.epochNanos - x.offset.nanos := by
    rcases hfirst with rfl | hfirst
    · exact hlow
    · omega
  exact ⟨⟨w, x.offset, hrange, by omega⟩, subtract_eq_ok.mpr ⟨hw, hoffset.symm⟩⟩

theorem eq_iff_hasDayAt (h : x.add d = .ok y) (hdays : d.days = 0) (hz : y.subtract d = .ok z) :
    z = x ↔ x.wall.date.ymd.HasDayAt d.months := by
  obtain ⟨hadd, hoffset⟩ := add_eq_ok.mp h
  obtain ⟨hsubtract, hoffset'⟩ := subtract_eq_ok.mp hz
  rw [← LocalDateTime.eq_iff_hasDayAt hadd hdays hsubtract]
  constructor
  · rintro rfl
    rfl
  · exact fun hwall => ext_wall_offset hwall (hoffset'.trans hoffset)

theorem subtract_of_add_without_months (h : x.add d = .ok y) (hmonths : d.months = 0) : y.subtract d = .ok x := by
  obtain ⟨hadd, hoffset⟩ := add_eq_ok.mp h
  exact subtract_eq_ok.mpr ⟨LocalDateTime.subtract_of_add_without_months hadd hmonths, hoffset.symm⟩

end OffsetDateTime

/-- Subtracting undoes an addition without months. After one without days it gives a value too, and it gives the start
back if the month at the distance has the day of month of the start. At an offset this is so of instant and offset. -/
theorem subtract_undoes_add :
    (∀ (x y : LocalDateTime) (d : Duration), x.add d = .ok y → d.months = 0 → y.subtract d = .ok x) ∧
    (∀ (x y : LocalDateTime) (d : Duration), x.add d = .ok y → d.days = 0 →
      ∃ z, y.subtract d = .ok z ∧ (z = x ↔ x.date.ymd.HasDayAt d.months)) ∧
    (∀ (x y : OffsetDateTime) (d : Duration), x.add d = .ok y → d.months = 0 →
      ∃ z, y.subtract d = .ok z ∧ z.offset = x.offset ∧
        Value.exactEqual? (.offsetDateTime z) (.offsetDateTime x) = some true) ∧
    ∀ (x y : OffsetDateTime) (d : Duration), x.add d = .ok y → d.days = 0 →
      ∃ z, y.subtract d = .ok z ∧ z.offset = x.offset ∧
        (Value.exactEqual? (.offsetDateTime z) (.offsetDateTime x) = some true ↔
          x.wall.date.ymd.HasDayAt d.months) := by
  refine ⟨fun x y d => LocalDateTime.subtract_of_add_without_months, fun x y d hadd hdays => ?_,
    fun x y d hadd hmonths => ?_, fun x y d hadd hdays => ?_⟩
  · obtain ⟨z, hz⟩ := LocalDateTime.exists_subtract_of_add hadd hdays
    exact ⟨z, hz, LocalDateTime.eq_iff_hasDayAt hadd hdays hz⟩
  · have hz := OffsetDateTime.subtract_of_add_without_months hadd hmonths
    exact ⟨x, hz, rfl, OffsetDateTime.exactEqual_iff.mpr rfl⟩
  · obtain ⟨z, hz⟩ := OffsetDateTime.exists_subtract_of_add hadd hdays
    have hoffset := (OffsetDateTime.subtract_eq_ok.mp hz).2.trans (OffsetDateTime.add_eq_ok.mp hadd).2
    exact ⟨z, hz, hoffset, OffsetDateTime.exactEqual_iff.trans (OffsetDateTime.eq_iff_hasDayAt hadd hdays hz)⟩

/-- A day and an hour lead from midnight to an hour past the next one, and are undone. A month from the end of January
is not, and leaves three days. -/
theorem subtract_undoes_add_but_for_end_of_january :
    let dayAndHour : Duration := ⟨0, 1, 3600000000000, by decide, by decide⟩
    let month : Duration := ⟨1, 0, 0, by decide, by decide⟩
    let january : LocalDateTime := ⟨⟨2459976, by decide, by decide⟩, .midnight⟩
    let next : LocalDateTime := ⟨⟨2459977, by decide, by decide⟩, ⟨3600000000000, by decide, by decide⟩⟩
    let february : LocalDateTime := ⟨⟨2460004, by decide, by decide⟩, .midnight⟩
    let x : OffsetDateTime := ⟨january, ⟨3600, by decide, by decide⟩, by decide, by decide⟩
    let y : OffsetDateTime := ⟨february, ⟨3600, by decide, by decide⟩, by decide, by decide⟩
    let later : OffsetDateTime := ⟨next, ⟨3600, by decide, by decide⟩, by decide, by decide⟩
    (january.add dayAndHour = .ok next ∧ next.subtract dayAndHour = .ok january) ∧
      (january.add month = .ok february ∧ ∃ z, february.subtract month = .ok z ∧ z ≠ january) ∧
      (x.add dayAndHour = .ok later ∧ ∃ z, later.subtract dayAndHour = .ok z ∧ z.offset = x.offset ∧
        Value.exactEqual? (.offsetDateTime z) (.offsetDateTime x) = some true) ∧
      x.add month = .ok y ∧ ∃ z, y.subtract month = .ok z ∧ z.offset = x.offset ∧
        Value.exactEqual? (.offsetDateTime z) (.offsetDateTime x) ≠ some true := by
  intro dayAndHour month january next february x y later
  obtain ⟨hundone, hclamped, hundone', hclamped'⟩ := subtract_undoes_add
  have hmissing : ¬january.date.ymd.HasDayAt month.months := by
    rw [← YearMonthDay.clamped_eq_iff january.date.exists_ymd]
    decide
  have hadd : january.add month = .ok february := LocalDateTime.add_eq_ok_iff.mpr (by decide)
  have hadd' : x.add month = .ok y := OffsetDateTime.add_eq_ok.mpr ⟨hadd, rfl⟩
  have hnext : january.add dayAndHour = .ok next := LocalDateTime.add_eq_ok_iff.mpr (by decide)
  have hlater : x.add dayAndHour = .ok later := OffsetDateTime.add_eq_ok.mpr ⟨hnext, rfl⟩
  obtain ⟨z, hz, hiff⟩ := hclamped january february month hadd rfl
  obtain ⟨u, hu, hoffset, hequal⟩ := hundone' x later dayAndHour hlater rfl
  obtain ⟨w, hw, hoffset', hiff'⟩ := hclamped' x y month hadd' rfl
  refine ⟨⟨hnext, hundone january next dayAndHour hnext rfl⟩, ⟨hadd, z, hz, fun h => hmissing (hiff.mp h)⟩,
    ⟨hlater, u, hu, hoffset, hequal⟩, hadd', w, hw, hoffset', fun h => hmissing (hiff'.mp h)⟩

end CivilTime
