/- Clocks that count microseconds take every reading, and give it back without its finer digits. -/
import CivilTime.Exchange.Micros
import CivilTime.Proofs.Duration
import CivilTime.Proofs.Iso8601.Fields

namespace CivilTime

namespace MicroSpan

/-- A span has at most this many days, either way. -/
def maxDays : Int := 999999999

/-- Seconds and microseconds are not negative and fill no day and no second. Only days may be negative. -/
def Normal (s : MicroSpan) : Prop := (0 ≤ s.seconds ∧ s.seconds < 86400) ∧ 0 ≤ s.micros ∧ s.micros < 1000000

instance (s : MicroSpan) : Decidable s.Normal := inferInstanceAs (Decidable (_ ∧ _))

theorem normal_ofMicros (n : Int) : (ofMicros n).Normal := by
  simp only [Normal, ofMicros, microsPerDay, microsPerSecond]
  omega

/-- A count has one span of this form. -/
theorem ofMicros_totalMicros {s : MicroSpan} (h : s.Normal) : ofMicros s.totalMicros = s := by
  obtain ⟨days, seconds, micros⟩ := s
  simp only [Normal] at h
  simp only [ofMicros, totalMicros, microsPerDay, microsPerSecond, mk.injEq]
  omega

/-- Whole seconds are in the days and seconds alone. Below zero a day more is taken off, and seconds make up for it. -/
theorem ofMicros_seconds (n : Int) : (ofMicros (n * microsPerSecond)).micros = 0 ∧
    (ofMicros (n * microsPerSecond)).days * secondsPerDay + (ofMicros (n * microsPerSecond)).seconds = n := by
  simp only [ofMicros, microsPerDay, microsPerSecond, secondsPerDay]
  omega

theorem checkOffset_seconds (o : Offset) : (ofMicros (o.seconds * microsPerSecond)).checkOffset = .ok () := by
  have h0 := o.neg_day_lt
  have h1 := o.lt_day
  refine if_pos ?_
  rw [totalMicros_ofMicros]
  simp only [microsPerDay, microsPerSecond, secondsPerDay] at *
  omega

end MicroSpan

/-! Fields that a value has pass the checks of such a clock. -/

theorem YearMonthDay.checkMicros_eq_ok {x : YearMonthDay} :
    x.checkMicros = .ok () ↔ (1 ≤ x.year ∧ x.year ≤ 9999) ∧ x.Exists := by
  simp only [checkMicros, unless_eq_ok, and_true]
  simp only [Exists, Calendar.firstYear, Calendar.lastYear]
  omega

theorem MicroTime.check_eq_ok {t : MicroTime} : t.check = .ok () ↔ (0 ≤ t.hour ∧ t.hour ≤ 23) ∧
    (0 ≤ t.minute ∧ t.minute ≤ 59) ∧ (0 ≤ t.second ∧ t.second ≤ 59) ∧ (0 ≤ t.micros ∧ t.micros ≤ 999999) := by
  simp only [check, unless_eq_ok, and_true]
  omega

namespace TimeOfDay

theorem microsecond_bounds (t : TimeOfDay) : 0 ≤ t.microsecond ∧ t.microsecond ≤ 999999 := by
  have h := t.nanosecond_bounds
  simp only [microsecond, nanosPerMicrosecond]
  omega

theorem check_toMicros (t : TimeOfDay) : t.toMicros.check = .ok () :=
  MicroTime.check_eq_ok.mpr ⟨t.hour_bounds, t.minute_bounds, t.second_bounds, t.microsecond_bounds⟩

/-- The time without what is finer than a microsecond. -/
def wholeMicros (t : TimeOfDay) : TimeOfDay :=
  ⟨t.nanos / nanosPerMicrosecond * nanosPerMicrosecond,
    by have := t.nonneg; simp only [nanosPerMicrosecond]; omega,
    by have := t.lt_day; simp only [nanosPerMicrosecond] at *; omega⟩

theorem ofMicros_toMicros (t : TimeOfDay) : ofMicros t.toMicros false = .ok t.wholeMicros := by
  refine ofClock_eq_ok.mpr ?_
  simp only [toMicros, wholeMicros, hour, minute, second, nanosecond, microsecond, nanosPerMicrosecond, nanosPerSecond,
    nanosPerMinute, nanosPerHour]
  omega

end TimeOfDay

namespace LocalDateTime

theorem check_toMicros (l : LocalDateTime) (offset : Option Offset) (name : Option String) :
    (l.toMicros offset name).check = .ok () := by
  have hdate : l.date.ymd.checkMicros = .ok () :=
    YearMonthDay.checkMicros_eq_ok.mpr ⟨l.date.year_bounds, l.date.exists_ymd⟩
  have hfields : (do l.date.ymd.checkMicros; l.time.toMicros.check) = .ok () :=
    bind_eq_ok.mpr ⟨(), hdate, l.time.check_toMicros⟩
  cases offset with
  | none => exact hfields
  | some o => exact bind_eq_ok.mpr ⟨(), MicroSpan.checkOffset_seconds o, hfields⟩

/-- The reading without what is finer than a microsecond. -/
def wholeMicros (l : LocalDateTime) : LocalDateTime := ⟨l.date, l.time.wholeMicros⟩

theorem epochNanos_wholeMicros (l : LocalDateTime) :
    l.wholeMicros.epochNanos = l.epochNanos / nanosPerMicrosecond * nanosPerMicrosecond := by
  simp only [wholeMicros, TimeOfDay.wholeMicros, epochNanos, nanosPerDay, nanosPerMicrosecond]
  omega

end LocalDateTime

namespace OffsetDateTime

/-- The range starts at a whole microsecond and offsets are whole seconds, so that the instant stays in range. -/
theorem wholeMicros_bounds (x : OffsetDateTime) :
    Instant.firstNanos ≤ x.wall.wholeMicros.epochNanos - x.offset.nanos ∧
      x.wall.wholeMicros.epochNanos - x.offset.nanos ≤ Instant.lastNanos := by
  have hfirst := x.firstNanos_le
  have hlast := x.le_lastNanos
  rw [x.wall.epochNanos_wholeMicros]
  simp only [Instant.firstNanos, Offset.nanos, Calendar.firstDay, Calendar.epochDay, nanosPerDay, nanosPerSecond,
    nanosPerMicrosecond] at *
  omega

/-- The reading without what is finer than a microsecond. -/
def wholeMicros (x : OffsetDateTime) : OffsetDateTime :=
  ⟨x.wall.wholeMicros, x.offset, x.wholeMicros_bounds.1, x.wholeMicros_bounds.2⟩

end OffsetDateTime

namespace Value

/-- A clock that counts microseconds can be set to the value, and what it then shows is taken as the other value. -/
def ComesBackAs (v w : Value) : Prop := ∃ x, v.toMicros = .ok x ∧ x.check = .ok () ∧ ofMicros x = .ok w

/-- The offset is taken again, so that only the instant could be out of range. -/
theorem ofMicros_toMicros (l : LocalDateTime) (offset : Option Offset) (name : Option String) :
    ofMicros (l.toMicros offset name) = match offset with
      | none => .ok (localDateTime l.wholeMicros)
      | some o => OffsetDateTime.of l.wholeMicros o >>= fun x => .ok (offsetDateTime x) := by
  have hdate : Date.ofYmd l.date.ymd.year l.date.ymd.month l.date.ymd.day = .ok l.date := l.date.ofYmd_fields
  have htime : TimeOfDay.ofMicros l.time.toMicros false = .ok l.time.wholeMicros := l.time.ofMicros_toMicros
  rw [ofMicros, LocalDateTime.toMicros, bind_of_eq_ok hdate, bind_of_eq_ok htime]
  cases offset with
  | none => rfl
  | some o =>
    obtain ⟨hmicros, hseconds⟩ := MicroSpan.ofMicros_seconds o.seconds
    simp only [Option.map_some, hmicros, ne_eq, not_true_eq_false, if_false]
    rw [bind_of_eq_ok (Offset.ofSeconds_eq_ok.mpr hseconds.symm)]
    rfl

theorem comesBack_local (l : LocalDateTime) : (localDateTime l).ComesBackAs (localDateTime l.wholeMicros) :=
  ⟨_, rfl, l.check_toMicros none none, ofMicros_toMicros l none none⟩

/-- Whatever name goes with the offset, a reading at it comes back at the same offset. -/
theorem comesBack_at_offset (v : Value) (x : OffsetDateTime) (name : Option String)
    (h : v.toMicros = .ok (x.wall.toMicros (some x.offset) name)) : v.ComesBackAs (offsetDateTime x.wholeMicros) := by
  refine ⟨_, h, x.wall.check_toMicros _ name, ?_⟩
  have hof : OffsetDateTime.of x.wall.wholeMicros x.offset = .ok x.wholeMicros := OffsetDateTime.of_eq_ok.mpr ⟨rfl, rfl⟩
  rw [ofMicros_toMicros]
  exact bind_of_eq_ok hof _

end Value

namespace Duration

variable {d r : Duration} {s : MicroSpan} {n : Int}

theorem not_mixedSigns_nanos (n : Int) : ¬MixedSigns 0 0 n := by
  unfold MixedSigns
  omega

theorem exceeds_nanos_iff : Exceeds 0 0 n ↔ maxNanos < |n| := by
  simp [Exceeds, maxMonths, maxDays]

theorem firstExceeding_nanos : firstExceeding 0 0 n = n := by
  simp [firstExceeding, maxMonths, maxDays]

theorem ofMicros_eq_ok : ofMicros s = .ok r ↔
    r.months = 0 ∧ r.days = 0 ∧ r.nanos = s.totalMicros * nanosPerMicrosecond := ofParts_eq_ok

theorem exists_ofMicros_iff : (∃ r, ofMicros s = .ok r) ↔ |s.totalMicros * nanosPerMicrosecond| ≤ maxNanos := by
  refine exists_ofParts_iff.trans ?_
  rw [and_iff_right (not_mixedSigns_nanos _), exceeds_nanos_iff, not_lt]

/-- A span that is too long is refused, and nothing else is. -/
theorem fails_ofMicros {kind : ErrorKind} : Fails (liftM (ofMicros s)) kind ↔
    kind = ErrorKind.rangeOverflow.naming [s.totalMicros * nanosPerMicrosecond] ∧
      maxNanos < |s.totalMicros * nanosPerMicrosecond| := by
  have hsigns := not_mixedSigns_nanos (s.totalMicros * nanosPerMicrosecond)
  refine fails_ofParts.trans ?_
  simp only [hsigns, and_false, false_or, not_false_eq_true, true_and, exceeds_nanos_iff, firstExceeding_nanos]

/-- A span of a number of days that spans can have is not too long to be named. -/
theorem naming_of_normal (hs : s.Normal) (hdays : |s.days| ≤ MicroSpan.maxDays) (kind : ErrorKind) :
    kind.naming [s.totalMicros * nanosPerMicrosecond] = kind := by
  refine naming_of_natAbs_le ?_
  rw [abs_le] at hdays
  simp only [MicroSpan.Normal, MicroSpan.maxDays, MicroSpan.totalMicros, MicroSpan.microsPerDay,
    MicroSpan.microsPerSecond, nanosPerMicrosecond] at *
  omega

theorem toMicros_of_exact (hmonths : d.months = 0) (hdays : d.days = 0) :
    d.toMicros = .ok (MicroSpan.ofMicros (d.nanos.tdiv nanosPerMicrosecond)) :=
  if_pos (by simp [isExact, hasDatePart, hmonths, hdays])

/-- Nothing is left to drop of a duration that was made of a span. -/
theorem toMicros_of_ofMicros (h : ofMicros s = .ok r) (hs : s.Normal) : r.toMicros = .ok s := by
  obtain ⟨hmonths, hdays, hnanos⟩ := ofMicros_eq_ok.mp h
  have hne : nanosPerMicrosecond ≠ 0 := by decide
  rw [toMicros_of_exact hmonths hdays, hnanos, Int.mul_tdiv_cancel _ hne, MicroSpan.ofMicros_totalMicros hs]

theorem abs_tdiv_mul_le {bound : Int} (h : |n| ≤ bound) :
    |n.tdiv nanosPerMicrosecond * nanosPerMicrosecond| ≤ bound := by
  have hsign : Int.sign 1000 = 1 := rfl
  rw [abs_le] at h ⊢
  rw [nanosPerMicrosecond, Int.tdiv_eq_ediv, hsign]
  split <;> omega

theorem abs_days_le (h : |n * nanosPerMicrosecond| ≤ maxNanos) : |(MicroSpan.ofMicros n).days| ≤ MicroSpan.maxDays := by
  rw [abs_le] at h ⊢
  simp only [MicroSpan.ofMicros, MicroSpan.microsPerDay, MicroSpan.maxDays, nanosPerMicrosecond, maxNanos, maxDays,
    nanosPerDay] at *
  omega

/-- What is finer than a microsecond is dropped towards zero, so that the span is no longer than the duration. -/
theorem exists_ofMicros_toMicros (hexact : d.isExact) : ∃ s r, d.toMicros = .ok s ∧
    (s.Normal ∧ |s.days| ≤ MicroSpan.maxDays) ∧ ofMicros s = .ok r ∧
      r.months = 0 ∧ r.days = 0 ∧ r.nanos = d.nanos.tdiv nanosPerMicrosecond * nanosPerMicrosecond := by
  have hbound := abs_tdiv_mul_le (abs_le.mpr d.bounded.2.2)
  have htotal := MicroSpan.totalMicros_ofMicros (d.nanos.tdiv nanosPerMicrosecond)
  obtain ⟨r, hr⟩ := exists_ofMicros_iff.mpr (htotal.symm ▸ hbound)
  refine ⟨_, r, if_pos hexact, ⟨MicroSpan.normal_ofMicros _, abs_days_le hbound⟩, hr, ?_⟩
  have hparts := ofMicros_eq_ok.mp hr
  rwa [htotal] at hparts

end Duration

/-- A clock and a span that count microseconds drop finer digits and nothing else. A reading, at its offset if it has
one, and an instant, at offset zero, can be shown by such a clock, and come back rounded to the past. An exact duration
comes back rounded towards zero. A span is refused as a duration if it is longer than any, and otherwise comes back as
it is. The refusal of one that spans can be is that it is out of range. -/
theorem exchange_drops_finer_digits_only :
    (∀ l : LocalDateTime, ∃ r : LocalDateTime, (Value.localDateTime l).ComesBackAs (.localDateTime r) ∧
      r.epochNanos = l.epochNanos / nanosPerMicrosecond * nanosPerMicrosecond) ∧
    (∀ x : OffsetDateTime, ∃ r : OffsetDateTime, (Value.offsetDateTime x).ComesBackAs (.offsetDateTime r) ∧
      r.offset = x.offset ∧ r.wall.epochNanos = x.wall.epochNanos / nanosPerMicrosecond * nanosPerMicrosecond) ∧
    (∀ z : ZonedDateTime, ∃ r : OffsetDateTime, (Value.zonedDateTime z).ComesBackAs (.offsetDateTime r) ∧
      r.offset = z.offset ∧ r.wall.epochNanos = z.wall.epochNanos / nanosPerMicrosecond * nanosPerMicrosecond) ∧
    (∀ i : Instant, ∃ r : OffsetDateTime, (Value.instant i).ComesBackAs (.offsetDateTime r) ∧
      r.offset = .utc ∧ r.wall.epochNanos = i.nanos / nanosPerMicrosecond * nanosPerMicrosecond) ∧
    (∀ d : Duration, d.isExact → ∃ s r, d.toMicros = .ok s ∧ (s.Normal ∧ |s.days| ≤ MicroSpan.maxDays) ∧
      Duration.ofMicros s = .ok r ∧ r.months = 0 ∧ r.days = 0 ∧
      r.nanos = d.nanos.tdiv nanosPerMicrosecond * nanosPerMicrosecond) ∧
    ∀ s : MicroSpan, (∀ kind, Fails (liftM (Duration.ofMicros s)) kind ↔
        kind = ErrorKind.rangeOverflow.naming [s.totalMicros * nanosPerMicrosecond] ∧
          Duration.maxNanos < |s.totalMicros * nanosPerMicrosecond|) ∧
      (s.Normal → |s.days| ≤ MicroSpan.maxDays → ∀ kind, Fails (liftM (Duration.ofMicros s)) kind ↔
        kind = .rangeOverflow ∧ Duration.maxNanos < |s.totalMicros * nanosPerMicrosecond|) ∧
      (s.Normal → |s.totalMicros * nanosPerMicrosecond| ≤ Duration.maxNanos →
        ∃ r, Duration.ofMicros s = .ok r ∧ r.toMicros = .ok s) := by
  refine ⟨fun l => ?_, fun x => ?_, fun z => ?_, fun i => ?_, fun d => Duration.exists_ofMicros_toMicros,
    fun s => ⟨fun kind => Duration.fails_ofMicros, fun hs hdays kind => ?_, fun hs hbound => ?_⟩⟩
  · exact ⟨l.wholeMicros, Value.comesBack_local l, l.epochNanos_wholeMicros⟩
  · exact ⟨x.wholeMicros, Value.comesBack_at_offset (.offsetDateTime x) x none rfl, rfl, x.wall.epochNanos_wholeMicros⟩
  · exact ⟨z.toOffset.wholeMicros, Value.comesBack_at_offset (.zonedDateTime z) z.toOffset _ rfl, rfl,
      z.wall.epochNanos_wholeMicros⟩
  · refine ⟨i.atUtc.wholeMicros, Value.comesBack_at_offset (.instant i) i.atUtc none rfl, rfl, ?_⟩
    rw [← i.utcReading_epochNanos]
    exact i.utcReading.epochNanos_wholeMicros
  · rw [Duration.fails_ofMicros, Duration.naming_of_normal hs hdays]
  · obtain ⟨r, hr⟩ := Duration.exists_ofMicros_iff.mpr hbound
    exact ⟨r, hr, Duration.toMicros_of_ofMicros hr hs⟩

/-- The first microsecond of the year 1 is not left. An hour less than nothing is a day less and 23 hours more, and a
span a microsecond longer than any duration is refused. -/
theorem exchange_drops_finer_digits_before_zero :
    let first : OffsetDateTime := ⟨⟨.min, ⟨999, by decide, by decide⟩⟩, .utc, by decide, by decide⟩
    let hour : Duration := ⟨0, 0, -3600000000999, by decide, by decide⟩
    let micro : MicroSpan := ⟨-1, 86399, 999999⟩
    (∃ r, (Value.offsetDateTime first).ComesBackAs (.offsetDateTime r) ∧ r.offset = .utc ∧
      r.wall.epochNanos = Instant.firstNanos) ∧
      (hour.isExact ∧ ∃ r, hour.toMicros = .ok ⟨-1, 82800, 0⟩ ∧ Duration.ofMicros ⟨-1, 82800, 0⟩ = .ok r ∧
        r.nanos = -3600000000000) ∧
      (micro.Normal ∧ |micro.totalMicros * nanosPerMicrosecond| ≤ Duration.maxNanos ∧
        ∃ r, Duration.ofMicros micro = .ok r ∧ r.toMicros = .ok micro) ∧
      Fails (liftM (Duration.ofMicros ⟨3659634, 0, 1⟩)) .rangeOverflow := by
  intro first hour micro
  obtain ⟨-, hreadings, -, -, hdurations, hspans⟩ := exchange_drops_finer_digits_only
  have hexact : hour.isExact := rfl
  have hnormal : micro.Normal := by decide
  have hbound : |micro.totalMicros * nanosPerMicrosecond| ≤ Duration.maxNanos := by decide
  obtain ⟨s, r, hs, -, hr, -, -, hnanos⟩ := hdurations hour hexact
  have hspan : hour.toMicros = .ok ⟨-1, 82800, 0⟩ := rfl
  obtain rfl : s = ⟨-1, 82800, 0⟩ := Except.ok.inj (hs.symm.trans hspan)
  exact ⟨hreadings first, ⟨hexact, r, hspan, hr, hnanos⟩, ⟨hnormal, hbound, (hspans micro).2.2 hnormal hbound⟩,
    ((hspans ⟨3659634, 0, 1⟩).2.1 (by decide) (by decide) _).mpr ⟨rfl, by decide⟩⟩

end CivilTime
