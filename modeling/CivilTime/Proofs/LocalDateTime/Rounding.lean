/- Readings rounded to a step of their clock: which multiple is taken, that order is kept, and when the result would be
past the last day. -/
import CivilTime.Proofs.LocalDateTime.Range
import CivilTime.Proofs.Iso8601.Fields
import CivilTime.Proofs.Rounding

namespace CivilTime.LocalDateTime
open Calendar TimeLine

/-- The point at which the day of a reading starts. -/
def dayStart (x : LocalDateTime) : Int := (x.date.dayNumber - epochDay) * nanosPerDay

variable {x y : LocalDateTime} {mode : RoundingMode} {step : Int}

theorem epochNanos_eq_dayStart_add (x : LocalDateTime) : x.epochNanos = x.dayStart + x.time.nanos := rfl

theorem dvd_dayStart (hday : step ∣ nanosPerDay) (x : LocalDateTime) : step ∣ x.dayStart :=
  hday.mul_left _

/-- A time of day is rounded within the day, both of its ends included. -/
theorem roundTo_bounds (mode : RoundingMode) (hstep : 0 < step) (hday : step ∣ nanosPerDay) (t : TimeOfDay) :
    0 ≤ mode.roundTo t.nanos step ∧ mode.roundTo t.nanos step ≤ nanosPerDay := by
  have htaken : mode.Takes 0 step t.nanos (mode.roundTo t.nanos step) := RoundingMode.takes_roundTo hstep
  have hfirst : mode.Takes 0 step 0 0 := RoundingMode.takes_self hstep (by simp)
  have hlast : mode.Takes 0 step nanosPerDay nanosPerDay := RoundingMode.takes_self hstep (by simpa using hday)
  exact ⟨hfirst.mono hstep htaken t.nonneg, htaken.mono hstep hlast (Int.le_of_lt t.lt_day)⟩

theorem takes_iff (hstep : 0 < step) {n : Int} :
    mode.Takes x.dayStart step x.epochNanos n ↔ n = x.dayStart + mode.roundTo x.time.nanos step := by
  have hvalue : x.epochNanos - x.dayStart = x.time.nanos := add_sub_cancel_left _ _
  have htaken : mode.Takes 0 step x.time.nanos (mode.roundTo x.time.nanos step) := RoundingMode.takes_roundTo hstep
  rw [← RoundingMode.takes_sub_origin, hvalue]
  constructor
  · intro h
    have := h.unique hstep htaken
    omega
  · rintro rfl
    rwa [add_sub_cancel_left]

theorem shift_one_eq_ok {date next : Date} : date.shift 0 1 = .ok next ↔ next.dayNumber = date.dayNumber + 1 := by
  rw [Date.shift, shift_eq_ok (supported_dayNumber date), shifted_zero, shifted_zero, Int.add_zero]
  exact and_iff_right (supported_dayNumber date)

theorem dayStart_add_day (x : LocalDateTime) :
    x.dayStart + nanosPerDay = (x.date.dayNumber + 1 - epochDay) * nanosPerDay + TimeOfDay.midnight.nanos := by
  simp only [dayStart, TimeOfDay.midnight, nanosPerDay]
  omega

/-- The rounded reading is the one at the multiple that the mode takes, the next midnight included. -/
theorem roundTo_eq_ok_iff (hstep : 0 < step) (hday : step ∣ nanosPerDay) :
    x.roundTo mode step = .ok y ↔ mode.Takes x.dayStart step x.epochNanos y.epochNanos := by
  obtain ⟨h0, hle⟩ := roundTo_bounds mode hstep hday x.time
  rw [takes_iff hstep]
  dsimp only [roundTo]
  by_cases hfull : mode.roundTo x.time.nanos step = nanosPerDay
  · rw [if_pos hfull, hfull, dayStart_add_day, epochNanos_eq_iff, bind_eq_ok]
    constructor
    · rintro ⟨next, hnext, hy⟩
      cases hy
      exact ⟨shift_one_eq_ok.mp hnext, rfl⟩
    · rintro ⟨hdate, htime⟩
      refine ⟨y.date, shift_one_eq_ok.mpr hdate, ?_⟩
      rw [← htime]
      rfl
  · have hlt : mode.roundTo x.time.nanos step < nanosPerDay := by omega
    have htime : x.dayStart + mode.roundTo x.time.nanos step =
        (x.date.dayNumber - epochDay) * nanosPerDay + (⟨_, h0, hlt⟩ : TimeOfDay).nanos := rfl
    rw [if_neg hfull, htime, epochNanos_eq_iff, bind_eq_ok]
    constructor
    · rintro ⟨time, ht, hy⟩
      cases hy
      exact ⟨rfl, TimeOfDay.ext_nanos (TimeOfDay.ofNanos_eq_ok.mp ht)⟩
    · rintro ⟨hdate, ht⟩
      refine ⟨⟨_, h0, hlt⟩, TimeOfDay.ofNanos_eq_ok.mpr rfl, ?_⟩
      rw [← Date.ext_dayNumber hdate, ← ht]
      rfl

theorem roundTo_error_kind (hstep : 0 < step) (hday : step ∣ nanosPerDay) {f : Fault}
    (h : x.roundTo mode step = .error f) : (Error.fault f).kind = .rangeOverflow := by
  obtain ⟨h0, hle⟩ := roundTo_bounds mode hstep hday x.time
  dsimp only [roundTo] at h
  by_cases hfull : mode.roundTo x.time.nanos step = nanosPerDay
  · rw [if_pos hfull] at h
    rcases bind_eq_error.mp h with h | ⟨next, -, h⟩
    · exact shift_error_kind (supported_dayNumber _) (by decide) h
    · cases h
  · have htime : TimeOfDay.ofNanos (mode.roundTo x.time.nanos step) = .ok ⟨_, h0, by omega⟩ :=
      TimeOfDay.ofNanos_eq_ok.mpr rfl
    rw [if_neg hfull, htime] at h
    cases h

/-- The midnight after the last day is the only result that there is no reading for. -/
theorem exists_roundTo_iff (hstep : 0 < step) (hday : step ∣ nanosPerDay) :
    (∃ y, x.roundTo mode step = .ok y) ↔
      ¬mode.Takes x.dayStart step x.epochNanos (LocalDateTime.max.epochNanos + 1) := by
  obtain ⟨h0, hle⟩ := roundTo_bounds mode hstep hday x.time
  have hfirst := x.date.firstDay_le
  have hlast := x.date.le_lastDay
  have hmin : LocalDateTime.min.epochNanos = (firstDay - epochDay) * nanosPerDay := by decide
  have hmax : LocalDateTime.max.epochNanos = (lastDay - epochDay + 1) * nanosPerDay - 1 := by decide
  simp only [roundTo_eq_ok_iff hstep hday, takes_iff hstep, exists_epochNanos_eq_iff]
  rw [inRange, Set.mem_Icc, hmin, hmax]
  simp only [dayStart, nanosPerDay] at *
  omega

theorem fails_roundTo (hstep : 0 < step) (hday : step ∣ nanosPerDay) {kind : ErrorKind} :
    Fails (liftM (x.roundTo mode step)) kind ↔
      kind = .rangeOverflow ∧ mode.Takes x.dayStart step x.epochNanos (LocalDateTime.max.epochNanos + 1) := by
  rw [fails_iff_of_error_kind fun _ => roundTo_error_kind hstep hday, exists_roundTo_iff hstep hday, not_not]

/-- A reading lies in its day, and its rounded one too, the end of the day included. -/
theorem mono_of_takes (hstep : 0 < step) (hday : step ∣ nanosPerDay) {x' : LocalDateTime} {n n' : Int}
    (h : mode.Takes x.dayStart step x.epochNanos n) (h' : mode.Takes x'.dayStart step x'.epochNanos n')
    (hle : x ≤ x') : n ≤ n' := by
  rcases Int.lt_or_eq_of_le (date_le_of_le hle) with hlt | heq
  · -- The midnight before the later reading keeps the two apart.
    have hend := (roundTo_bounds mode hstep hday x.time).2
    have hstart := (roundTo_bounds mode hstep hday x'.time).1
    rw [takes_iff hstep] at h h'
    simp only [dayStart, nanosPerDay] at *
    omega
  · have hsame : x.dayStart = x'.dayStart := by rw [dayStart, heq, dayStart]
    rw [hsame] at h
    exact h.mono hstep h' hle

theorem dvd_time_of_takes (hday : step ∣ nanosPerDay) (h : mode.Takes x.dayStart step x.epochNanos y.epochNanos) :
    step ∣ y.time.nanos := by
  have hsum := Int.dvd_add h.1 (dvd_dayStart hday x)
  rw [Int.sub_add_cancel, epochNanos_eq_dayStart_add] at hsum
  exact (Int.dvd_add_right (dvd_dayStart hday y)).mp hsum

/-- A rounded reading is a multiple and is taken for itself. -/
theorem takes_again (hstep : 0 < step) (h : step ∣ y.time.nanos) :
    mode.Takes y.dayStart step y.epochNanos y.epochNanos := by
  refine RoundingMode.takes_self hstep ?_
  rwa [epochNanos_eq_dayStart_add, add_sub_cancel_left]

theorem date_of_takes (hstep : 0 < step) (hday : step ∣ nanosPerDay)
    (h : mode.Takes x.dayStart step x.epochNanos y.epochNanos) :
    y.date = x.date ∨ (y.date.dayNumber = x.date.dayNumber + 1 ∧ y.time = TimeOfDay.midnight) := by
  obtain ⟨h0, hle⟩ := roundTo_bounds mode hstep hday x.time
  rw [takes_iff hstep] at h
  by_cases hfull : mode.roundTo x.time.nanos step = nanosPerDay
  · rw [hfull, dayStart_add_day, epochNanos_eq_iff] at h
    exact Or.inr h
  · have hlt : mode.roundTo x.time.nanos step < nanosPerDay := by omega
    have hsame := (epochNanos_eq_iff (t := ⟨_, h0, hlt⟩)).mp h
    exact Or.inl (Date.ext_dayNumber hsame.1)

/-- Names of a unit and a mode stand for them. -/
theorem round_eq {unit : TimeUnit} {increment : Datum} (h : unit.step increment = .ok step) (mode : RoundingMode)
    (x : LocalDateTime) :
    x.round (.text unit.name) increment (.text mode.name) = liftM (x.roundTo mode step) := by
  have hstep : (liftM (unit.step increment) : Except Error Int) = .ok step := liftM_eq_ok.mpr h
  rw [round, TimeUnit.ofDatum_name, RoundingMode.ofDatum_name]
  -- The names are read, and what is left is the step.
  show (liftM (unit.step increment) : Except Error Int) >>= (fun step => liftM (x.roundTo mode step)) = _
  rw [hstep]
  rfl

/-- A step that a unit accepts divides the day. A reading is rounded to the multiple of it, counted from the midnight
before, that the mode takes, unless this is the midnight after the last day. It is in the same day or the next midnight,
it stays when it is rounded again, and rounding keeps the order of readings. -/
theorem round_takes_multiple_of_step {unit : TimeUnit} {increment : Datum} {step : Int}
    (h : unit.step increment = .ok step) :
    (0 < step ∧ step ∣ nanosPerDay) ∧ ∀ mode : RoundingMode,
      let round (x : LocalDateTime) := x.round (.text unit.name) increment (.text mode.name)
      (∀ x y, round x = .ok y ↔ mode.Takes x.dayStart step x.epochNanos y.epochNanos) ∧
      (∀ x y, round x = .ok y → step ∣ y.time.nanos ∧
        (y.date = x.date ∨ (y.date.dayNumber = x.date.dayNumber + 1 ∧ y.time = TimeOfDay.midnight)) ∧
        round y = .ok y) ∧
      (∀ x x' y y', round x = .ok y → round x' = .ok y' → x ≤ x' → y ≤ y') ∧
      ∀ x kind, Fails (round x) kind ↔
        kind = .rangeOverflow ∧ mode.Takes x.dayStart step x.epochNanos (LocalDateTime.max.epochNanos + 1) := by
  obtain ⟨hstep, hday⟩ := TimeUnit.step_dvd_day h
  refine ⟨⟨hstep, hday⟩, fun mode => ?_⟩
  have hround (x y : LocalDateTime) : x.round (.text unit.name) increment (.text mode.name) = .ok y ↔
      mode.Takes x.dayStart step x.epochNanos y.epochNanos := by
    rw [round_eq h, liftM_eq_ok, roundTo_eq_ok_iff hstep hday]
  refine ⟨hround, fun x y hy => ?_, fun x x' y y' hy hy' hle => ?_, fun x kind => ?_⟩
  · have htaken := (hround x y).mp hy
    have hdvd := dvd_time_of_takes hday htaken
    exact ⟨hdvd, date_of_takes hstep hday htaken, (hround y y).mpr (takes_again hstep hdvd)⟩
  · exact mono_of_takes hstep hday ((hround x y).mp hy) ((hround x' y').mp hy') hle
  · dsimp only
    rw [round_eq h]
    exact fails_roundTo hstep hday

/-- Nine in the morning and nine in the evening lie in the middle of quarters of a day. The even quarters are noon and
the next midnight, which after the last day is out of range. -/
theorem round_takes_multiple_of_step_at_quarters_of_day :
    let quarters (x : LocalDateTime) := x.round (.text "hour") (.int 6) (.text "half_even")
    let day : Date := ⟨2460325, by decide, by decide⟩
    let nine : TimeOfDay := ⟨32400000000000, by decide, by decide⟩
    let twentyOne : TimeOfDay := ⟨75600000000000, by decide, by decide⟩
    let next : LocalDateTime := ⟨⟨2460326, by decide, by decide⟩, .midnight⟩
    TimeUnit.hour.step (.int 6) = .ok 21600000000000 ∧
      (quarters ⟨day, nine⟩ = .ok ⟨day, .noon⟩ ∧ quarters ⟨day, .noon⟩ = .ok ⟨day, .noon⟩) ∧
      (quarters ⟨day, twentyOne⟩ = .ok next ∧ (⟨day, .noon⟩ : LocalDateTime) ≤ next) ∧
      Fails (quarters ⟨.max, twentyOne⟩) .rangeOverflow := by
  intro quarters day nine twentyOne next
  have hstep : TimeUnit.hour.step (.int 6) = .ok 21600000000000 := rfl
  obtain ⟨htakes, hmultiple, hmono, hfails⟩ := (round_takes_multiple_of_step hstep).2 .halfEven
  have hnine : quarters ⟨day, nine⟩ = .ok ⟨day, .noon⟩ := (htakes _ _).mpr ⟨by decide, by decide, by decide⟩
  have htwentyOne : quarters ⟨day, twentyOne⟩ = .ok next := (htakes _ _).mpr ⟨by decide, by decide, by decide⟩
  have hle : (⟨day, .noon⟩ : LocalDateTime) ≤ next := hmono _ _ _ _ hnine htwentyOne (by decide)
  exact ⟨hstep, ⟨hnine, (hmultiple _ _ hnine).2.2⟩, ⟨htwentyOne, hle⟩,
    (hfails _ _).mpr ⟨rfl, by decide, by decide, by decide⟩⟩

end CivilTime.LocalDateTime
