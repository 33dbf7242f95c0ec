/- When checked moves succeed, and what the split of a distance into months and days is. -/
import CivilTime.Date.Operations
import CivilTime.Proofs.Calendar.Months
import CivilTime.Proofs.Outcome

namespace CivilTime.Calendar
open YearMonthDay

/-- A day that a `Date` can be. -/
def Supported (n : Int) : Prop := firstDay ≤ n ∧ n ≤ lastDay

instance (n : Int) : Decidable (Supported n) := inferInstanceAs (Decidable (_ ∧ _))

theorem supported_dayNumber (d : Date) : Supported d.dayNumber := ⟨d.firstDay_le, d.le_lastDay⟩

theorem dateAt_eq_ok {n : Int} {f : Fault} {d : Date} : dateAt n f = .ok d ↔ d.dayNumber = n := by
  rw [← Date.ofDayNumber?_eq_some, dateAt]
  cases Date.ofDayNumber? n <;> simp

theorem dateAt_error {n : Int} {f g : Fault} (h : dateAt n f = .error g) : g = f := by
  unfold dateAt at h
  split at h
  · cases h
  · cases h
    rfl

theorem addMonths_eq_ok {n months : Int} {d : YearMonthDay} :
    addMonths (ofDayNumber n) months = .ok d ↔
      Supported (shifted n months 0) ∧ d = (ofDayNumber n).addMonths months := by
  have hy := year_bounds_iff (exists_addMonths (exists_ofDayNumber n) months)
  have hs := shifted_eq n months 0
  rw [Int.add_zero] at hs
  rw [← hs] at hy
  rw [Supported, ← hy]
  dsimp only [addMonths]
  split
  · rename_i h
    rw [Except.ok.injEq, and_iff_right h]
    exact eq_comm
  · rename_i h
    simp only [h, false_and, reduceCtorEq]

theorem addMonths_error {d : YearMonthDay} {months : Int} {f : Fault} (h : addMonths d months = .error f) :
    f = .yearOverflow ((d.monthIndex + months) / 12) := by
  dsimp only [addMonths] at h
  split at h
  · cases h
  · cases h
    rfl

theorem monthIndex_bounds {n : Int} (hn : Supported n) :
    12 ≤ (ofDayNumber n).monthIndex ∧ (ofDayNumber n).monthIndex ≤ 119999 := by
  have hday := exists_ofDayNumber n
  have hiff := year_bounds_iff hday
  rw [dayNumber_ofDayNumber] at hiff
  have hyear := hiff.mpr hn
  have hmonth := hday.1
  have hmonth' := hday.2.1
  simp only [monthIndex, firstYear, lastYear] at *
  omega

/-- There are only so many months between two supported days. -/
theorem natAbs_months_le {n months : Int} (hn : Supported n) (hm : Supported (shifted n months 0)) :
    months.natAbs ≤ 119988 := by
  have hindex := monthIndex_bounds hn
  have hday := shifted_eq n months 0
  rw [Int.add_zero] at hday
  rw [hday] at hm
  have hyear := (year_bounds_iff (exists_addMonths (exists_ofDayNumber n) months)).mpr hm
  simp only [YearMonthDay.addMonths, firstYear, lastYear] at hyear
  omega

/-- A supported day moved by a number of months that is not excessive: whatever year it misses is short. -/
theorem addMonths_error_kind {n months : Int} {f : Fault} (hn : Supported n) (hm : months.natAbs ≤ 10 ^ 30)
    (h : addMonths (ofDayNumber n) months = .error f) : (Error.fault f).kind = .rangeOverflow := by
  have hindex := monthIndex_bounds hn
  rw [addMonths_error h]
  exact naming_of_natAbs_le (by omega)

/-- The day that is reached by whole months has to be supported before days are counted from it. -/
theorem shift_eq_ok {n months days : Int} {d : Date} (hn : Supported n) :
    shift n months days = .ok d ↔
      Supported (shifted n months 0) ∧ d.dayNumber = shifted n months days := by
  rw [shifted_add n months days]
  dsimp only [shift]
  by_cases hm : months = 0
  · subst hm
    rw [if_pos rfl, shifted_zero, Int.add_zero, and_iff_right hn]
    exact dateAt_eq_ok
  · rw [if_neg hm, bind_eq_ok]
    simp only [map_eq_ok, addMonths_eq_ok, dateAt_eq_ok, shifted_eq n months 0, Int.add_zero]
    constructor
    · rintro ⟨a, ⟨d', ⟨hs, rfl⟩, rfl⟩, hd⟩
      exact ⟨hs, hd⟩
    · rintro ⟨hs, hd⟩
      exact ⟨_, ⟨_, ⟨hs, rfl⟩, rfl⟩, hd⟩

theorem exists_shift_eq_ok {n months days : Int} (hn : Supported n) (hm : Supported (shifted n months 0))
    (hd : Supported (shifted n months days)) :
    ∃ d : Date, shift n months days = .ok d ∧ d.dayNumber = shifted n months days :=
  ⟨⟨shifted n months days, hd.1, hd.2⟩, (shift_eq_ok hn).mpr ⟨hm, rfl⟩, rfl⟩

theorem shift_error_kind {n months days : Int} {f : Fault} (hn : Supported n) (hm : months.natAbs ≤ 10 ^ 30)
    (h : shift n months days = .error f) : (Error.fault f).kind = .rangeOverflow := by
  dsimp only [shift] at h
  by_cases hzero : months = 0
  · rw [if_pos hzero] at h
    rw [dateAt_error h]
    rfl
  · rw [if_neg hzero] at h
    cases ha : addMonths (ofDayNumber n) months with
    | ok d =>
      rw [ha] at h
      rw [dateAt_error h]
      rfl
    | error g =>
      rw [ha] at h
      cases h
      exact addMonths_error_kind hn hm ha

/-- A day with a time of day lies past a later point. -/
def Passes (day nanos laterDay laterNanos : Int) : Prop :=
  laterDay < day ∨ (day = laterDay ∧ laterNanos < nanos)

instance (day nanos laterDay laterNanos : Int) : Decidable (Passes day nanos laterDay laterNanos) := by
  unfold Passes
  infer_instance

/-- The most months, and after them the most days, that do not lead past a later point. -/
structure IsSplit (day nanos laterDay laterNanos months days : Int) : Prop where
  days_nonneg : 0 ≤ days
  not_passes : ¬Passes (shifted day months days) nanos laterDay laterNanos
  passes_month : Passes (shifted day (months + 1) 0) nanos laterDay laterNanos
  passes_day : Passes (shifted day months (days + 1)) nanos laterDay laterNanos

variable {day nanos laterDay laterNanos : Int}

theorem Passes.mono {n m : Int} (h : Passes n nanos laterDay laterNanos) (hnm : n ≤ m) :
    Passes m nanos laterDay laterNanos := by
  unfold Passes at *
  omega

/-- The move into the month of the later point decides whether a month has to be taken back. -/
def roundMonths (day laterDay : Int) : Int := (ofDayNumber laterDay).monthIndex - (ofDayNumber day).monthIndex

theorem shifted_roundMonths (day laterDay : Int) :
    monthStart (ofDayNumber laterDay).monthIndex ≤ shifted day (roundMonths day laterDay) 0 ∧
      shifted day (roundMonths day laterDay) 0 < monthStart ((ofDayNumber laterDay).monthIndex + 1) := by
  have h := shifted_bounds day (roundMonths day laterDay)
  have e : (ofDayNumber day).monthIndex + roundMonths day laterDay = (ofDayNumber laterDay).monthIndex := by
    simp only [roundMonths]
    omega
  rwa [e] at h

theorem shifted_roundMonths_sub_one (day laterDay : Int) :
    shifted day (roundMonths day laterDay - 1) 0 < monthStart (ofDayNumber laterDay).monthIndex := by
  have h := (shifted_bounds day (roundMonths day laterDay - 1)).2
  have e : (ofDayNumber day).monthIndex + (roundMonths day laterDay - 1) + 1 =
      (ofDayNumber laterDay).monthIndex := by
    simp only [roundMonths]
    omega
  rwa [e] at h

theorem month_bounds (n : Int) :
    monthStart (ofDayNumber n).monthIndex ≤ n ∧ n < monthStart ((ofDayNumber n).monthIndex + 1) := by
  have h := dayNumber_bounds (exists_ofDayNumber n)
  rwa [dayNumber_ofDayNumber] at h

theorem supported_roundMonths (h : Supported laterDay) : Supported (shifted day (roundMonths day laterDay) 0) := by
  have hs := shifted_roundMonths day laterDay
  have hb := month_bounds laterDay
  have hf := monthStart_firstYear
  have hl := monthStart_lastYear
  have h1 : firstYear * 12 ≤ (ofDayNumber laterDay).monthIndex := by
    by_contra hc
    have := monthStart_strictMono.monotone (show (ofDayNumber laterDay).monthIndex + 1 ≤ firstYear * 12 by omega)
    have := h.1
    omega
  have h2 : (ofDayNumber laterDay).monthIndex + 1 ≤ lastYear * 12 + 12 := by
    by_contra hc
    have := monthStart_strictMono.monotone
      (show lastYear * 12 + 12 ≤ (ofDayNumber laterDay).monthIndex by omega)
    have := h.2
    omega
  have := monthStart_strictMono.monotone h1
  have := monthStart_strictMono.monotone h2
  exact ⟨by omega, by omega⟩

/-- The months of the split: those to the month of the later point, or one less. -/
def splitMonths (day nanos laterDay laterNanos : Int) : Int :=
  if Passes (shifted day (roundMonths day laterDay) 0) nanos laterDay laterNanos then
    roundMonths day laterDay - 1
  else roundMonths day laterDay

/-- The days that are left, less one if the time of day would pass the later one. -/
def splitDays (day nanos laterDay laterNanos : Int) : Int :=
  let days := laterDay - shifted day (splitMonths day nanos laterDay laterNanos) 0
  if 0 < days ∧ laterNanos < nanos then days - 1 else days

theorem addMonths_ok {n months : Int} (h : Supported (shifted n months 0)) :
    addMonths (ofDayNumber n) months = .ok ((ofDayNumber n).addMonths months) :=
  addMonths_eq_ok.mpr ⟨h, rfl⟩

theorem monthsDaysBetween_eq (h : Supported laterDay) :
    monthsDaysBetween day nanos laterDay laterNanos =
      (addMonths (ofDayNumber day) (splitMonths day nanos laterDay laterNanos)).map fun _ =>
        (splitMonths day nanos laterDay laterNanos, splitDays day nanos laterDay laterNanos) := by
  have hs (months : Int) : ((ofDayNumber day).addMonths months).dayNumber = shifted day months 0 := by
    rw [shifted_eq, Int.add_zero]
  have hr : addMonths (ofDayNumber day) (roundMonths day laterDay) = .ok _ :=
    addMonths_ok (supported_roundMonths h)
  have he : (ofDayNumber laterDay).monthIndex - (ofDayNumber day).monthIndex = roundMonths day laterDay := rfl
  unfold splitDays splitMonths
  simp only [monthsDaysBetween, he, hr, bind, Except.bind, Functor.map, Except.map, hs]
  by_cases hp : Passes (shifted day (roundMonths day laterDay) 0) nanos laterDay laterNanos
  · have hp' : _ ∨ _ := hp
    rw [if_pos hp, if_pos hp']
    cases ha : addMonths (ofDayNumber day) (roundMonths day laterDay - 1) with
    | error f => rfl
    | ok d =>
      simp only [(addMonths_eq_ok.mp ha).2, hs]
      rfl
  · have hp' : ¬(_ ∨ _) := hp
    rw [if_neg hp, if_neg hp', hr]
    rfl

/-- Day by day, a month taken back always suffices. -/
theorem not_passes_splitMonths :
    shifted day (splitMonths day nanos laterDay laterNanos) 0 ≤ laterDay ∧
      ¬Passes (shifted day (splitMonths day nanos laterDay laterNanos) 0) nanos laterDay laterNanos := by
  have hb := month_bounds laterDay
  have h1 := shifted_roundMonths_sub_one day laterDay
  unfold splitMonths
  split
  · unfold Passes
    omega
  · rename_i hp
    refine ⟨?_, hp⟩
    unfold Passes at hp
    omega

theorem passes_splitMonths_add_one :
    Passes (shifted day (splitMonths day nanos laterDay laterNanos + 1) 0) nanos laterDay laterNanos := by
  have hb := month_bounds laterDay
  unfold splitMonths
  split
  · rename_i hp
    rwa [Int.sub_add_cancel]
  · have h1 := shifted_bounds day (roundMonths day laterDay + 1)
    have e : (ofDayNumber day).monthIndex + (roundMonths day laterDay + 1) =
        (ofDayNumber laterDay).monthIndex + 1 := by
      simp only [roundMonths]
      omega
    rw [e] at h1
    exact Or.inl (by omega)

theorem isSplit_split : IsSplit day nanos laterDay laterNanos
    (splitMonths day nanos laterDay laterNanos) (splitDays day nanos laterDay laterNanos) := by
  have hm : _ ≤ laterDay ∧ ¬Passes (shifted day _ 0) nanos laterDay laterNanos := not_passes_splitMonths
  simp only [splitDays]
  refine ⟨?_, ?_, passes_splitMonths_add_one, ?_⟩
  · split <;> omega
  · rw [shifted_add]
    unfold Passes at hm ⊢
    split <;> omega
  · rw [shifted_add]
    unfold Passes at hm ⊢
    split <;> omega

theorem IsSplit.not_passes_months {months days : Int} (h : IsSplit day nanos laterDay laterNanos months days) :
    ¬Passes (shifted day months 0) nanos laterDay laterNanos := by
  intro hp
  have hd := h.days_nonneg
  refine h.not_passes (hp.mono ?_)
  rw [shifted_add day months days]
  omega

theorem IsSplit.le_months {months days m : Int} (h : IsSplit day nanos laterDay laterNanos months days)
    (hm : ¬Passes (shifted day m 0) nanos laterDay laterNanos) : m ≤ months := by
  by_contra hc
  exact hm (h.passes_month.mono ((shifted_strictMono day).monotone (by omega)))

theorem IsSplit.le_days {months days d : Int} (h : IsSplit day nanos laterDay laterNanos months days)
    (hd : ¬Passes (shifted day months d) nanos laterDay laterNanos) : d ≤ days := by
  by_contra hc
  refine hd (h.passes_day.mono ?_)
  rw [shifted_add, shifted_add day months d]
  omega

/-- Months and days that are greater in lexicographic order lead past the later point. -/
theorem IsSplit.passes_of_lex {months days m d : Int} (h : IsSplit day nanos laterDay laterNanos months days)
    (hd : 0 ≤ d) (hgreater : Prod.Lex (· < ·) (· < ·) (months, days) (m, d)) :
    Passes (shifted day m d) nanos laterDay laterNanos := by
  rcases Prod.lex_def.mp hgreater with hm | ⟨rfl, hd⟩
  · refine h.passes_month.mono ?_
    have hmono := (shifted_strictMono day).monotone (show months + 1 ≤ m from hm)
    rw [shifted_add day m d]
    omega
  · refine h.passes_day.mono ?_
    rw [shifted_add, shifted_add day months d]
    simp only at hd
    omega

theorem IsSplit.unique {m d m' d' : Int} (h : IsSplit day nanos laterDay laterNanos m d)
    (h' : IsSplit day nanos laterDay laterNanos m' d') : m = m' ∧ d = d' := by
  have hm : m = m' := Int.le_antisymm (h'.le_months h.not_passes_months) (h.le_months h'.not_passes_months)
  subst hm
  exact ⟨rfl, Int.le_antisymm (h'.le_days h.not_passes) (h.le_days h'.not_passes)⟩

theorem monthsDaysBetween_eq_ok {months days : Int} (h : Supported laterDay) :
    monthsDaysBetween day nanos laterDay laterNanos = .ok (months, days) ↔
      Supported (shifted day months 0) ∧ IsSplit day nanos laterDay laterNanos months days := by
  have hs : IsSplit day nanos laterDay laterNanos (splitMonths day nanos laterDay laterNanos)
      (splitDays day nanos laterDay laterNanos) := isSplit_split
  rw [monthsDaysBetween_eq h]
  constructor
  · intro he
    obtain ⟨d, hd, hp⟩ := map_eq_ok.mp he
    obtain ⟨rfl, rfl⟩ := Prod.mk.inj hp
    exact ⟨(addMonths_eq_ok.mp hd).1, hs⟩
  · rintro ⟨hm, hsplit⟩
    obtain ⟨rfl, rfl⟩ := hs.unique hsplit
    rw [addMonths_ok hm]
    rfl

theorem le_of_not_passes {n : Int} (h : ¬Passes n nanos laterDay laterNanos) : n ≤ laterDay := by
  unfold Passes at h
  omega

/-- A move forward that stays below a supported day is supported at each of its steps. -/
theorem supported_shifted {months days : Int} (hd : Supported day) (hl : Supported laterDay) (hm : 0 ≤ months)
    (hk : 0 ≤ days) (h : shifted day months days ≤ laterDay) :
    Supported (shifted day months 0) ∧ Supported (shifted day months days) := by
  have hmono := (shifted_strictMono day).monotone hm
  simp only [shifted_zero, Int.add_zero] at hmono
  rw [shifted_add day months days] at *
  unfold Supported at *
  omega

/-- From a month that stays below a supported day a month can be taken back. -/
theorem exists_shift_sub_one {months : Int} (hd : Supported day) (hl : Supported laterDay) (hm : 0 < months)
    (h : shifted day months 0 ≤ laterDay) :
    ∃ d : Date, shift day (months - 1) 0 = .ok d ∧ d.dayNumber = shifted day (months - 1) 0 := by
  have hback := shifted_sub_one_le day months
  have hsup := (supported_shifted hd hl (show 0 ≤ months - 1 by omega) (Int.le_refl 0) (by omega)).1
  exact exists_shift_eq_ok hd hsup hsup

theorem exists_monthsDaysBetween (hd : Supported day) (hl : Supported laterDay)
    (h : ¬Passes day nanos laterDay laterNanos) :
    ∃ months days, monthsDaysBetween day nanos laterDay laterNanos = .ok (months, days) ∧
      0 ≤ months ∧ IsSplit day nanos laterDay laterNanos months days := by
  have hs : IsSplit day nanos laterDay laterNanos (splitMonths day nanos laterDay laterNanos)
      (splitDays day nanos laterDay laterNanos) := isSplit_split
  have h0 : 0 ≤ splitMonths day nanos laterDay laterNanos :=
    hs.le_months (by rwa [shifted_zero, Int.add_zero])
  have hsup := supported_shifted hd hl h0 hs.days_nonneg (le_of_not_passes hs.not_passes)
  exact ⟨_, _, (monthsDaysBetween_eq_ok hl).mpr ⟨hsup.1, hs⟩, h0, hs⟩

theorem natAbs_splitMonths_le (hd : Supported day) (hl : Supported laterDay) :
    (splitMonths day nanos laterDay laterNanos).natAbs ≤ 119988 := by
  have hfirst := monthIndex_bounds hd
  have hlast := monthIndex_bounds hl
  unfold splitMonths roundMonths
  split <;> omega

theorem monthsDaysBetween_error_kind {f : Fault} (hd : Supported day) (hl : Supported laterDay)
    (h : monthsDaysBetween day nanos laterDay laterNanos = .error f) : (Error.fault f).kind = .rangeOverflow := by
  have hmonths : (splitMonths day nanos laterDay laterNanos).natAbs ≤ 119988 := natAbs_splitMonths_le hd hl
  rw [monthsDaysBetween_eq hl] at h
  cases ha : addMonths (ofDayNumber day) (splitMonths day nanos laterDay laterNanos) with
  | ok d =>
    rw [ha] at h
    cases h
  | error g =>
    rw [ha] at h
    cases h
    exact addMonths_error_kind hd (by omega) ha

end CivilTime.Calendar
