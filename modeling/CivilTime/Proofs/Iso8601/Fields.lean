/- Dates and times are made from their fields, and the fields that make one are those that it has. -/
import CivilTime.Offset.Operations
import CivilTime.Proofs.Calendar.Split
import CivilTime.TimeOfDay.Operations

namespace CivilTime

/-- A field is taken only as the integer that it is. -/
theorem Calendar.integerField_eq_ok {field : DateField} {a : Datum} {n : Int} :
    integerField field a = .ok n ↔ a = .int n := by
  cases a with
  | int m => simp [integerField, Datum.int?]
  | _ => exact iff_of_false nofun nofun

theorem Calendar.integerField_error {field : DateField} {a : Datum} {f : Fault} (h : integerField field a = .error f) :
    f = .dateFieldNotInteger field a ∧ a.int? = none := by
  unfold integerField at h
  split at h
  · cases h
  · rename_i hnone
    cases h
    exact ⟨rfl, hnone⟩

namespace Date

theorem exists_ymd (d : Date) : d.ymd.Exists := YearMonthDay.exists_ofDayNumber d.dayNumber

theorem dayNumber_ymd (d : Date) : d.ymd.dayNumber = d.dayNumber := YearMonthDay.dayNumber_ofDayNumber d.dayNumber

theorem year_bounds (d : Date) : 1 ≤ d.year ∧ d.year ≤ 9999 := by
  refine (Calendar.year_bounds_iff d.exists_ymd).mpr ?_
  rw [d.dayNumber_ymd]
  exact ⟨d.firstDay_le, d.le_lastDay⟩

theorem month_bounds (d : Date) : 1 ≤ d.month ∧ d.month ≤ 12 := ⟨d.exists_ymd.1, d.exists_ymd.2.1⟩

theorem day_bounds (d : Date) : 1 ≤ d.day ∧ d.day ≤ Calendar.monthLength d.year d.month :=
  d.exists_ymd.2.2

theorem ofYmd_fields (d : Date) : ofYmd d.year d.month d.day = .ok d := by
  have hday : Calendar.checkDay d.year d.month d.day = .ok () := if_pos d.day_bounds
  have hmonth : Calendar.checkMonth d.month = .ok () := if_pos d.month_bounds
  have hyear : Calendar.checkYear d.year = .ok () := if_pos d.year_bounds
  have hchecked : Calendar.checkedDay d.year d.month d.day = .ok d.ymd := by
    rw [Calendar.checkedDay, hyear, hmonth, hday]
    rfl
  exact bind_eq_ok.mpr ⟨d.ymd, hchecked, Calendar.dateAt_eq_ok.mpr d.dayNumber_ymd.symm⟩

/-- The years 1 to 9999 have all their days. -/
theorem exists_ymd_eq_iff {x : YearMonthDay} :
    (∃ d : Date, d.ymd = x) ↔ (1 ≤ x.year ∧ x.year ≤ 9999) ∧ x.Exists := by
  constructor
  · rintro ⟨d, rfl⟩
    exact ⟨d.year_bounds, d.exists_ymd⟩
  · rintro ⟨hyear, hexists⟩
    obtain ⟨hfirst, hlast⟩ := (Calendar.year_bounds_iff hexists).mp hyear
    exact ⟨⟨x.dayNumber, hfirst, hlast⟩, YearMonthDay.ofDayNumber_dayNumber hexists⟩

theorem ofYmd_eq_ok {year month day : Int} {d : Date} :
    ofYmd year month day = .ok d ↔ d.ymd = ⟨year, month, day⟩ := by
  constructor
  · intro h
    obtain ⟨x, hchecked, hdate⟩ := bind_eq_ok.mp h
    obtain ⟨⟨⟩, hyear, hchecked⟩ := bind_eq_ok.mp hchecked
    obtain ⟨⟨⟩, hmonth, hchecked⟩ := bind_eq_ok.mp hchecked
    obtain ⟨⟨⟩, hday, hchecked⟩ := bind_eq_ok.mp hchecked
    cases hchecked
    have hm := check_eq_ok.mp hmonth
    have hexists : YearMonthDay.Exists ⟨year, month, day⟩ := ⟨hm.1, hm.2, check_eq_ok.mp hday⟩
    rw [ymd, Calendar.dateAt_eq_ok.mp hdate, YearMonthDay.ofDayNumber_dayNumber hexists]
  · intro h
    have hfields := d.ofYmd_fields
    rwa [Date.year, Date.month, Date.day, h] at hfields

theorem ofFields_eq_ok {a b c : Datum} {d : Date} :
    ofFields a b c = .ok d ↔ a = .int d.year ∧ b = .int d.month ∧ c = .int d.day := by
  constructor
  · intro h
    obtain ⟨x, hchecked, hdate⟩ := bind_eq_ok.mp h
    obtain ⟨y, hyear, hchecked⟩ := bind_eq_ok.mp hchecked
    obtain ⟨⟨⟩, hyearRange, hchecked⟩ := bind_eq_ok.mp hchecked
    obtain ⟨m, hmonth, hchecked⟩ := bind_eq_ok.mp hchecked
    obtain ⟨⟨⟩, hmonthRange, hchecked⟩ := bind_eq_ok.mp hchecked
    obtain ⟨n, hday, hchecked⟩ := bind_eq_ok.mp hchecked
    cases Calendar.integerField_eq_ok.mp hyear
    cases Calendar.integerField_eq_ok.mp hmonth
    cases Calendar.integerField_eq_ok.mp hday
    rw [Date.year, Date.month, Date.day, ofYmd_eq_ok.mp h]
    exact ⟨rfl, rfl, rfl⟩
  · rintro ⟨rfl, rfl, rfl⟩
    exact d.ofYmd_fields

theorem ofDayNumberField_eq_ok {a : Datum} {d : Date} : ofDayNumberField a = .ok d ↔ a = .int d.dayNumber := by
  rw [ofDayNumberField, bind_eq_ok]
  constructor
  · rintro ⟨n, ha, hd⟩
    rw [Calendar.integerField_eq_ok.mp ha, Calendar.dateAt_eq_ok.mp hd]
  · exact fun ha => ⟨d.dayNumber, Calendar.integerField_eq_ok.mpr ha, Calendar.dateAt_eq_ok.mpr rfl⟩

end Date

namespace TimeOfDay

theorem hour_bounds (t : TimeOfDay) : 0 ≤ t.hour ∧ t.hour ≤ 23 := by
  have h0 := t.nonneg
  have h1 := t.lt_day
  simp only [hour, nanosPerDay, nanosPerHour] at *
  omega

theorem minute_bounds (t : TimeOfDay) : 0 ≤ t.minute ∧ t.minute ≤ 59 := by
  simp only [minute, nanosPerHour, nanosPerMinute]
  omega

theorem second_bounds (t : TimeOfDay) : 0 ≤ t.second ∧ t.second ≤ 59 := by
  simp only [second, nanosPerMinute, nanosPerSecond]
  omega

theorem nanosecond_bounds (t : TimeOfDay) : 0 ≤ t.nanosecond ∧ t.nanosecond ≤ 999999999 := by
  simp only [nanosecond, nanosPerSecond]
  omega

theorem ofNanos_eq_ok {n : Int} {t : TimeOfDay} : ofNanos n = .ok t ↔ t.nanos = n := by
  rw [← ofNanos?_eq_some, ofNanos, timeAt]
  cases ofNanos? n <;> simp

theorem ofClock_fields (t : TimeOfDay) : ofClock t.hour t.minute t.second t.nanosecond = .ok t := by
  have hnanos : ofNanos (nanosOfClock t.hour t.minute t.second t.nanosecond) = .ok t := by
    rw [nanosOfClock, ← t.nanos_eq_fields]
    exact ofNanos_eq_ok.mpr rfl
  have hhour : checkField .hour t.hour = .ok () := if_pos t.hour_bounds
  have hminute : checkField .minute t.minute = .ok () := if_pos t.minute_bounds
  have hsecond : checkField .second t.second = .ok () := if_pos t.second_bounds
  have hnanosecond : checkField .nanosecond t.nanosecond = .ok () := if_pos t.nanosecond_bounds
  rw [ofClock, hhour, hminute, hsecond, hnanosecond]
  exact hnanos

theorem exists_fields_eq_iff {hour minute second nanosecond : Int} :
    (∃ t : TimeOfDay, t.hour = hour ∧ t.minute = minute ∧ t.second = second ∧ t.nanosecond = nanosecond) ↔
      (0 ≤ hour ∧ hour ≤ 23) ∧ (0 ≤ minute ∧ minute ≤ 59) ∧ (0 ≤ second ∧ second ≤ 59) ∧
        (0 ≤ nanosecond ∧ nanosecond ≤ 999999999) := by
  constructor
  · rintro ⟨t, rfl, rfl, rfl, rfl⟩
    exact ⟨t.hour_bounds, t.minute_bounds, t.second_bounds, t.nanosecond_bounds⟩
  · rintro ⟨hh, hm, hs, hn⟩
    have hlow : 0 ≤ nanosOfClock hour minute second nanosecond := by
      simp only [nanosOfClock, nanosPerHour, nanosPerMinute, nanosPerSecond]
      omega
    have hhigh : nanosOfClock hour minute second nanosecond < nanosPerDay := by
      simp only [nanosOfClock, nanosPerHour, nanosPerMinute, nanosPerSecond, nanosPerDay]
      omega
    refine ⟨⟨_, hlow, hhigh⟩, ?_⟩
    simp only [TimeOfDay.hour, TimeOfDay.minute, TimeOfDay.second, TimeOfDay.nanosecond, nanosOfClock, nanosPerHour,
      nanosPerMinute, nanosPerSecond]
    omega

theorem ofClock_eq_ok {hour minute second nanosecond : Int} {t : TimeOfDay} :
    ofClock hour minute second nanosecond = .ok t ↔
      t.hour = hour ∧ t.minute = minute ∧ t.second = second ∧ t.nanosecond = nanosecond := by
  constructor
  · intro h
    obtain ⟨⟨⟩, hhour, h⟩ := bind_eq_ok.mp h
    obtain ⟨⟨⟩, hminute, h⟩ := bind_eq_ok.mp h
    obtain ⟨⟨⟩, hsecond, h⟩ := bind_eq_ok.mp h
    obtain ⟨⟨⟩, hnanosecond, h⟩ := bind_eq_ok.mp h
    obtain ⟨u, rfl, rfl, rfl, rfl⟩ := exists_fields_eq_iff.mpr
      ⟨check_eq_ok.mp hhour, check_eq_ok.mp hminute, check_eq_ok.mp hsecond, check_eq_ok.mp hnanosecond⟩
    rw [ext_nanos ((ofNanos_eq_ok.mp h).trans u.nanos_eq_fields.symm)]
    exact ⟨rfl, rfl, rfl, rfl⟩
  · rintro ⟨rfl, rfl, rfl, rfl⟩
    exact t.ofClock_fields

end TimeOfDay

namespace Offset

theorem ofSeconds_eq_ok {n : Int} {o : Offset} : ofSeconds n = .ok o ↔ o.seconds = n := by
  rw [← ofSeconds?_eq_some, ofSeconds]
  cases ofSeconds? n <;> simp

theorem ofSeconds_seconds (o : Offset) : ofSeconds o.seconds = .ok o := ofSeconds_eq_ok.mpr rfl

end Offset

namespace Iso8601

/-- Year, month and day of a date, as they are written. -/
def dateFields (d : Date) : Nat × Nat × Nat := (d.year.toNat, d.month.toNat, d.day.toNat)

/-- Clock fields of a time, as they are written. -/
def timeFields (t : TimeOfDay) : Nat × Nat × Nat × Nat :=
  (t.hour.toNat, t.minute.toNat, t.second.toNat, t.nanosecond.toNat)

end Iso8601

end CivilTime
