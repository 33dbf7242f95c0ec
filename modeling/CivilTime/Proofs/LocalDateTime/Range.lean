/- Moves by a duration end where they would on a calendar without bounds. They overflow only if that is out of range,
and then not before. -/
import CivilTime.Proofs.Difference
import Mathlib.Order.Interval.Set.UnorderedInterval

namespace CivilTime

namespace Calendar

/-- A move by months keeps the day of month, or takes the last one of the month. -/
theorem exists_shifted_eq {x : YearMonthDay} (h : x.Exists) (months days : Int) :
    ∃ t : YearMonthDay, t.Exists ∧ t.monthIndex = x.monthIndex + months ∧
      t.day = min x.day (monthLength t.year t.month) ∧ shifted x.dayNumber months days = t.dayNumber + days := by
  have hindex := YearMonthDay.addMonths_monthIndex x months
  refine ⟨x.addMonths months, YearMonthDay.exists_addMonths h months, hindex, rfl, ?_⟩
  rw [shifted_eq, YearMonthDay.ofDayNumber_dayNumber h]

variable {n months days : Int}

theorem shifted_forward (hm : 0 ≤ months) (hd : 0 ≤ days) :
    n ≤ shifted n months 0 ∧ shifted n months 0 ≤ shifted n months days := by
  have hdays := shifted_add n months days
  exact ⟨le_shifted hm (Int.le_refl 0), by omega⟩

theorem shifted_backward (hm : months ≤ 0) (hd : days ≤ 0) :
    shifted n months days ≤ shifted n months 0 ∧ shifted n months 0 ≤ n := by
  have hmonths := (shifted_strictMono n).monotone hm
  have hdays := shifted_add n months days
  simp only [shifted_zero, Int.add_zero] at hmonths
  exact ⟨by omega, hmonths⟩

/-- The day before the days are counted lies between the ends of a move. -/
theorem shifted_between (n : Int) (d : Duration) :
    shifted n d.months 0 ∈ Set.uIcc n (shifted n d.months d.days) := by
  rw [Set.mem_uIcc]
  rcases d.oneSign with ⟨hm, hd, -⟩ | ⟨hm, hd, -⟩
  · exact Or.inl (shifted_forward hm hd)
  · exact Or.inr (shifted_backward hm hd)

end Calendar

open Calendar

namespace TimeLine

/-- The day of a point that is counted in nanoseconds from the epoch, without a bound. -/
def day (n : Int) : Int := epochDay + n / nanosPerDay

/-- By months, with a day that the month lacks moved to its end, and then by days. The time of day stays. -/
def moveDay (n months days : Int) : Int :=
  (shifted (day n) months days - epochDay) * nanosPerDay + n % nanosPerDay

/-- Months first, then days, then nanoseconds. -/
def added (n : Int) (d : Duration) : Int := moveDay n d.months d.days + d.nanos

/-- The negated nanoseconds first, then the negated months, then the negated days. -/
def subtracted (n : Int) (d : Duration) : Int := moveDay (n - d.nanos) (-d.months) (-d.days)

/-- The points that a reading can be. -/
def inRange : Set Int := Set.Icc LocalDateTime.min.epochNanos LocalDateTime.max.epochNanos

theorem day_epochNanos (l : LocalDateTime) : day l.epochNanos = l.date.dayNumber := by
  have h0 := l.time.nonneg
  have h1 := l.time.lt_day
  simp only [day, LocalDateTime.epochNanos, nanosPerDay] at *
  omega

theorem epochNanos_emod (l : LocalDateTime) : l.epochNanos % nanosPerDay = l.time.nanos := by
  have h0 := l.time.nonneg
  have h1 := l.time.lt_day
  simp only [LocalDateTime.epochNanos, nanosPerDay] at *
  omega

theorem day_moveDay (n months days : Int) : day (moveDay n months days) = shifted (day n) months days := by
  simp only [moveDay, nanosPerDay]
  -- Any day will do, as only the time of day is split off.
  generalize shifted (day n) months days = k
  simp only [day, nanosPerDay]
  omega

theorem supported_day_iff {n : Int} : Supported (day n) ↔ n ∈ inRange := by
  have hmin : LocalDateTime.min.epochNanos = (firstDay - epochDay) * nanosPerDay := by decide
  have hmax : LocalDateTime.max.epochNanos = (lastDay - epochDay + 1) * nanosPerDay - 1 := by decide
  rw [inRange, Set.mem_Icc, hmin, hmax]
  simp only [Supported, day, nanosPerDay]
  omega

theorem exists_epochNanos_eq_iff {n : Int} : (∃ l : LocalDateTime, l.epochNanos = n) ↔ n ∈ inRange := by
  rw [← supported_day_iff]
  constructor
  · rintro ⟨l, rfl⟩
    rw [day_epochNanos]
    exact supported_dayNumber l.date
  · intro h
    have htime : 0 ≤ n % nanosPerDay ∧ n % nanosPerDay < nanosPerDay := by
      simp only [nanosPerDay]
      omega
    refine ⟨⟨⟨day n, h.1, h.2⟩, ⟨n % nanosPerDay, htime.1, htime.2⟩⟩, ?_⟩
    simp only [LocalDateTime.epochNanos, day, nanosPerDay]
    omega

theorem epochNanos_mem (l : LocalDateTime) : l.epochNanos ∈ inRange := exists_epochNanos_eq_iff.mp ⟨l, rfl⟩

variable {n months days : Int}

theorem moveDay_forward (hm : 0 ≤ months) (hd : 0 ≤ days) :
    n ≤ moveDay n months 0 ∧ moveDay n months 0 ≤ moveDay n months days := by
  have h := shifted_forward (n := day n) hm hd
  simp only [moveDay, day, nanosPerDay] at *
  omega

theorem moveDay_backward (hm : months ≤ 0) (hd : days ≤ 0) :
    moveDay n months days ≤ moveDay n months 0 ∧ moveDay n months 0 ≤ n := by
  have h := shifted_backward (n := day n) hm hd
  simp only [moveDay, day, nanosPerDay] at *
  omega

/-- The parts of a duration lead one way, so the steps of a move lie between its ends. -/
theorem added_between (n : Int) (d : Duration) :
    moveDay n d.months 0 ∈ Set.uIcc n (added n d) ∧ moveDay n d.months d.days ∈ Set.uIcc n (added n d) := by
  simp only [Set.mem_uIcc, added]
  rcases d.oneSign with ⟨hm, hd, hn⟩ | ⟨hm, hd, hn⟩
  · have := moveDay_forward (n := n) hm hd
    omega
  · have := moveDay_backward (n := n) hm hd
    omega

theorem subtracted_between (n : Int) (d : Duration) :
    n - d.nanos ∈ Set.uIcc n (subtracted n d) ∧
      moveDay (n - d.nanos) (-d.months) 0 ∈ Set.uIcc n (subtracted n d) := by
  simp only [Set.mem_uIcc, subtracted]
  rcases d.oneSign.neg with ⟨hm, hd, hn⟩ | ⟨hm, hd, hn⟩
  · have := moveDay_forward (n := n - d.nanos) hm hd
    omega
  · have := moveDay_backward (n := n - d.nanos) hm hd
    omega

theorem added_steps_in_range {n : Int} {d : Duration} (hn : n ∈ inRange) (h : added n d ∈ inRange) :
    moveDay n d.months 0 ∈ inRange ∧ moveDay n d.months d.days ∈ inRange :=
  (added_between n d).imp (Set.uIcc_subset_Icc hn h ·) (Set.uIcc_subset_Icc hn h ·)

theorem subtracted_steps_in_range {n : Int} {d : Duration} (hn : n ∈ inRange) (h : subtracted n d ∈ inRange) :
    n - d.nanos ∈ inRange ∧ moveDay (n - d.nanos) (-d.months) 0 ∈ inRange :=
  (subtracted_between n d).imp (Set.uIcc_subset_Icc hn h ·) (Set.uIcc_subset_Icc hn h ·)

end TimeLine

/-- A checked move gives the value at its end if the end is in range, and an overflow if it is not. -/
structure EndsAt {α : Type} (result : Except Fault α) (place : α → Int) (range : Set Int) (n : Int) : Prop where
  value : ∀ y, result = .ok y ↔ place y = n
  returns : (∃ y, result = .ok y) ↔ n ∈ range
  overflows : n ∉ range → ∃ f, result = .error f ∧ (Error.fault f).kind = .rangeOverflow

/-- It is enough to know the value, if a move fails by an overflow only. -/
theorem endsAt_of_eq_ok {α : Type} {result : Except Fault α} {place : α → Int} {range : Set Int} {n : Int}
    (hplace : (∃ y, place y = n) ↔ n ∈ range) (hvalue : ∀ y, result = .ok y ↔ place y = n)
    (herror : ∀ f, result = .error f → (Error.fault f).kind = .rangeOverflow) : EndsAt result place range n := by
  have hreturns : (∃ y, result = .ok y) ↔ n ∈ range := (exists_congr hvalue).trans hplace
  refine ⟨hvalue, hreturns, fun hn => ?_⟩
  cases hresult : result with
  | ok y => exact absurd (hreturns.mp ⟨y, hresult⟩) hn
  | error f => exact ⟨f, rfl, herror f hresult⟩

namespace LocalDateTime
open TimeLine

variable {x y : LocalDateTime} {d : Duration}

theorem epochNanos_eq_iff {day : Int} {t : TimeOfDay} :
    y.epochNanos = (day - epochDay) * nanosPerDay + t.nanos ↔ y.date.dayNumber = day ∧ y.time = t := by
  have hy0 := y.time.nonneg
  have hy := y.time.lt_day
  have ht0 := t.nonneg
  have ht := t.lt_day
  constructor
  · intro h
    simp only [epochNanos, nanosPerDay] at *
    exact ⟨by omega, TimeOfDay.ext_nanos (by omega)⟩
  · rintro ⟨rfl, rfl⟩
    rfl

theorem shiftDate_eq_ok_iff {months days : Int} : x.shiftDate months days = .ok y ↔
    moveDay x.epochNanos months 0 ∈ inRange ∧ y.epochNanos = moveDay x.epochNanos months days := by
  rw [shiftDate_eq_ok, ← supported_day_iff, day_moveDay, day_epochNanos, moveDay, day_epochNanos, epochNanos_emod,
    epochNanos_eq_iff]

theorem add_eq_ok_iff : x.add d = .ok y ↔ y.epochNanos = added x.epochNanos d := by
  rw [add_eq_ok]
  constructor
  · rintro ⟨s, hs, hy⟩
    rw [hy, (shiftDate_eq_ok_iff.mp hs).2, added]
  · intro hy
    have hend : added x.epochNanos d ∈ inRange := hy ▸ epochNanos_mem y
    obtain ⟨hmonths, hdays⟩ := added_steps_in_range (epochNanos_mem x) hend
    obtain ⟨s, hs⟩ := exists_epochNanos_eq_iff.mpr hdays
    exact ⟨s, shiftDate_eq_ok_iff.mpr ⟨hmonths, hs⟩, by rw [hy, hs, added]⟩

theorem subtract_eq_ok_iff : x.subtract d = .ok y ↔ y.epochNanos = subtracted x.epochNanos d := by
  have hstep : x.subtract d = .ok y ↔ ∃ s : LocalDateTime, s.epochNanos = x.epochNanos - d.nanos ∧
      s.shiftDate (-d.months) (-d.days) = .ok y := by
    simp only [subtract, shiftNanos, bind_eq_ok, ofEpochNanos_eq_ok, Int.sub_eq_add_neg]
  rw [hstep]
  constructor
  · rintro ⟨s, hs, hy⟩
    rw [(shiftDate_eq_ok_iff.mp hy).2, hs, subtracted]
  · intro hy
    have hend : subtracted x.epochNanos d ∈ inRange := hy ▸ epochNanos_mem y
    obtain ⟨hnanos, hmonths⟩ := subtracted_steps_in_range (epochNanos_mem x) hend
    obtain ⟨s, hs⟩ := exists_epochNanos_eq_iff.mpr hnanos
    refine ⟨s, hs, shiftDate_eq_ok_iff.mpr ?_⟩
    rw [hs]
    exact ⟨hmonths, hy⟩

theorem shiftNanos_error_kind {n : Int} {f : Fault} (h : x.shiftNanos n = .error f) :
    (Error.fault f).kind = .rangeOverflow := by
  rw [ofEpochNanos_eq_error h]
  rfl

theorem add_error_kind {f : Fault} (h : x.add d = .error f) : (Error.fault f).kind = .rangeOverflow := by
  rcases bind_eq_error.mp h with h | ⟨s, -, h⟩
  · exact shiftDate_error_kind d.natAbs_months_le h
  · exact shiftNanos_error_kind h

theorem subtract_error_kind {f : Fault} (h : x.subtract d = .error f) : (Error.fault f).kind = .rangeOverflow := by
  rcases bind_eq_error.mp h with h | ⟨s, -, h⟩
  · exact shiftNanos_error_kind h
  · exact shiftDate_error_kind (-d).natAbs_months_le h

end LocalDateTime

namespace Date

variable {x y : Date} {d : Duration}

theorem add_eq_ok_iff (hnanos : d.nanos = 0) :
    x.add d = .ok y ↔ y.dayNumber = shifted x.dayNumber d.months d.days := by
  rw [add, if_pos hnanos, shift, shift_eq_ok (supported_dayNumber x), and_iff_right_iff_imp]
  intro hy
  have hend : shifted x.dayNumber d.months d.days ∈ Set.Icc firstDay lastDay := hy ▸ supported_dayNumber y
  exact Set.uIcc_subset_Icc (supported_dayNumber x) hend (shifted_between x.dayNumber d)

end Date

/-- Additions and subtractions give the point that the duration leads to on a calendar without bounds, if this is in
range, and an overflow if it is not. If it is, so are the points after each step. On that calendar a move by months
keeps the day of month, or takes the last one of the month. -/
theorem moves_overflow_only_at_their_end :
    (∀ (x : LocalDateTime) (d : Duration),
      EndsAt (x.add d) LocalDateTime.epochNanos TimeLine.inRange (TimeLine.added x.epochNanos d)) ∧
    (∀ (x : LocalDateTime) (d : Duration),
      EndsAt (x.subtract d) LocalDateTime.epochNanos TimeLine.inRange (TimeLine.subtracted x.epochNanos d)) ∧
    (∀ (x : Date) (d : Duration), d.nanos = 0 → EndsAt (x.add d) Date.dayNumber
      (Set.Icc Date.min.dayNumber Date.max.dayNumber) (shifted x.dayNumber d.months d.days)) ∧
    (∀ (x : LocalDateTime) (d : Duration), TimeLine.added x.epochNanos d ∈ TimeLine.inRange →
      TimeLine.moveDay x.epochNanos d.months 0 ∈ TimeLine.inRange ∧
        TimeLine.moveDay x.epochNanos d.months d.days ∈ TimeLine.inRange) ∧
    (∀ (x : LocalDateTime) (d : Duration), TimeLine.subtracted x.epochNanos d ∈ TimeLine.inRange →
      x.epochNanos - d.nanos ∈ TimeLine.inRange ∧
        TimeLine.moveDay (x.epochNanos - d.nanos) (-d.months) 0 ∈ TimeLine.inRange) ∧
    (∀ (x : Date) (d : Duration),
      shifted x.dayNumber d.months d.days ∈ Set.Icc Date.min.dayNumber Date.max.dayNumber →
      shifted x.dayNumber d.months 0 ∈ Set.Icc Date.min.dayNumber Date.max.dayNumber) ∧
    ∀ x : YearMonthDay, x.Exists → ∀ months days, ∃ t : YearMonthDay, t.Exists ∧
      t.monthIndex = x.monthIndex + months ∧ t.day = min x.day (monthLength t.year t.month) ∧
      shifted x.dayNumber months days = t.dayNumber + days := by
  refine ⟨fun x d => ?_, fun x d => ?_, fun x d hnanos => ?_, fun x d => ?_, fun x d => ?_, fun x d h => ?_,
    fun x => exists_shifted_eq⟩
  · exact endsAt_of_eq_ok TimeLine.exists_epochNanos_eq_iff (fun _ => LocalDateTime.add_eq_ok_iff)
      fun _ => LocalDateTime.add_error_kind
  · exact endsAt_of_eq_ok TimeLine.exists_epochNanos_eq_iff (fun _ => LocalDateTime.subtract_eq_ok_iff)
      fun _ => LocalDateTime.subtract_error_kind
  · refine endsAt_of_eq_ok ?_ (fun _ => Date.add_eq_ok_iff hnanos) fun f hf => ?_
    · constructor
      · rintro ⟨y, hy⟩
        exact hy ▸ supported_dayNumber y
      · exact fun h => ⟨⟨_, h.1, h.2⟩, rfl⟩
    · rw [Date.add, if_pos hnanos] at hf
      exact shift_error_kind (supported_dayNumber x) d.natAbs_months_le hf
  · exact TimeLine.added_steps_in_range (TimeLine.epochNanos_mem x)
  · exact TimeLine.subtracted_steps_in_range (TimeLine.epochNanos_mem x)
  · exact Set.uIcc_subset_Icc (supported_dayNumber x) h (shifted_between x.dayNumber d)

/-- A month and a day lead from the end of November 9999 to the last day, and from there back over the end of November.
No date is further on, but the calendar goes on to the end of February. -/
theorem moves_overflow_only_at_their_end_near_last_day :
    let d : Duration := ⟨1, 1, 0, by decide, by decide⟩
    let x : LocalDateTime := ⟨⟨5373453, by decide, by decide⟩, .midnight⟩
    let y : LocalDateTime := ⟨.max, .midnight⟩
    let z : LocalDateTime := ⟨⟨5373452, by decide, by decide⟩, .midnight⟩
    (x.add d = .ok y ∧ y.subtract d = .ok z) ∧
      (TimeLine.added x.epochNanos d ∈ TimeLine.inRange ∧ TimeLine.moveDay x.epochNanos d.months 0 ∈ TimeLine.inRange) ∧
      (TimeLine.subtracted y.epochNanos d ∈ TimeLine.inRange ∧ y.epochNanos - d.nanos ∈ TimeLine.inRange) ∧
      (shifted x.date.dayNumber d.months d.days ∈ Set.Icc Date.min.dayNumber Date.max.dayNumber ∧
        shifted x.date.dayNumber d.months 0 ∈ Set.Icc Date.min.dayNumber Date.max.dayNumber) ∧
      (d.nanos = 0 ∧ ∃ f, Date.max.add d = .error f ∧ (Error.fault f).kind = .rangeOverflow) ∧
      ∃ t : YearMonthDay, t.Exists ∧ t.monthIndex = y.date.ymd.monthIndex + 2 ∧
        t.day = min y.date.ymd.day (monthLength t.year t.month) ∧
        shifted y.date.ymd.dayNumber 2 1 = t.dayNumber + 1 := by
  intro d x y z
  obtain ⟨hadd, hsubtract, hdate, haddSteps, hsubtractSteps, hdateSteps, hmonths⟩ := moves_overflow_only_at_their_end
  have hadded : TimeLine.added x.epochNanos d ∈ TimeLine.inRange := ⟨by decide, by decide⟩
  have hsubtracted : TimeLine.subtracted y.epochNanos d ∈ TimeLine.inRange := ⟨by decide, by decide⟩
  have hshifted : shifted x.date.dayNumber d.months d.days ∈ Set.Icc Date.min.dayNumber Date.max.dayNumber :=
    ⟨by decide, by decide⟩
  have hout : shifted Date.max.dayNumber d.months d.days ∉ Set.Icc Date.min.dayNumber Date.max.dayNumber :=
    fun h => absurd h.2 (by decide)
  refine ⟨⟨((hadd x d).value y).mpr (by decide), ((hsubtract y d).value z).mpr (by decide)⟩,
    ⟨hadded, (haddSteps x d hadded).1⟩, ⟨hsubtracted, (hsubtractSteps y d hsubtracted).1⟩,
    ⟨hshifted, hdateSteps x.date d hshifted⟩, ⟨rfl, (hdate .max d rfl).overflows hout⟩,
    hmonths y.date.ymd (YearMonthDay.exists_ofDayNumber _) 2 1⟩

end CivilTime
