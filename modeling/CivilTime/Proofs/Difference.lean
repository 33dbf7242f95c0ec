/- The distance between two dates, or between two readings, is the largest that does not pass the later one. -/
import CivilTime.OffsetDateTime.Operations
import CivilTime.Proofs.Calendar.Split

namespace CivilTime
open Calendar

namespace Duration

/-- The months lead as far as months can without passing the end, and the days after them do so too. -/
structure IsMaximal {α : Type} [LE α] (d : Duration) (shift : Int → Int → Except Fault α)
    (stop : α) : Prop where
  nonneg : 0 ≤ d.months ∧ 0 ≤ d.days ∧ 0 ≤ d.nanos
  months_greatest : IsGreatest {m | ∃ s, shift m 0 = .ok s ∧ s ≤ stop} d.months
  days_greatest : IsGreatest {k | ∃ s, shift d.months k = .ok s ∧ s ≤ stop} d.days

theorem exists_ofParts {m d n : Int} (hm : 0 ≤ m ∧ m ≤ maxMonths) (hd : 0 ≤ d ∧ d ≤ maxDays)
    (hn : 0 ≤ n ∧ n ≤ maxNanos) : ∃ r : Duration, r.months = m ∧ r.days = d ∧ r.nanos = n := by
  have hs : OneSign m d n := Or.inl ⟨hm.1, hd.1, hn.1⟩
  have hb : Bounded m d n := by
    simp only [Bounded, maxMonths, maxNanos, maxDays, nanosPerDay] at *
    omega
  exact ⟨⟨m, d, n, hs, hb⟩, rfl, rfl, rfl⟩

theorem nanos_bounds {n : Int} (h0 : 0 ≤ n) (h : n < nanosPerDay) : 0 ≤ n ∧ n ≤ maxNanos := by
  simp only [maxNanos, maxDays, nanosPerDay] at *
  omega

theorem natAbs_months_le (d : Duration) : d.months.natAbs ≤ 10 ^ 30 := by
  have h := d.bounded
  simp only [Bounded, maxMonths] at h
  omega

/-- It is enough to know, for moves forward, when they do not pass the end. -/
theorem isMaximal_of_isSplit {α : Type} [LE α] {d : Duration}
    {shift : Int → Int → Except Fault α} {stop : α} {day nanos laterDay laterNanos : Int}
    (hreach : ∀ m k, 0 ≤ m → 0 ≤ k →
      ((∃ s, shift m k = .ok s ∧ s ≤ stop) ↔ ¬Passes (shifted day m k) nanos laterDay laterNanos))
    (hm : 0 ≤ d.months) (hn : 0 ≤ d.nanos) (h : IsSplit day nanos laterDay laterNanos d.months d.days) :
    d.IsMaximal shift stop := by
  have hd := h.days_nonneg
  refine ⟨⟨hm, hd, hn⟩, ⟨?_, ?_⟩, ⟨?_, ?_⟩⟩
  · exact (hreach _ _ hm (Int.le_refl 0)).mpr h.not_passes_months
  · intro m hreached
    by_cases h0 : 0 ≤ m
    · exact h.le_months ((hreach _ _ h0 (Int.le_refl 0)).mp hreached)
    · omega
  · exact (hreach _ _ hm hd).mpr h.not_passes
  · intro k hreached
    by_cases h0 : 0 ≤ k
    · exact h.le_days ((hreach _ _ hm h0).mp hreached)
    · omega

end Duration

namespace Calendar

theorem months_lt_of_shifted_le {day laterDay months : Int} (hd : Supported day) (hl : Supported laterDay)
    (h : shifted day months 0 ≤ laterDay) : months < Duration.maxMonths := by
  have hb := month_bounds day
  have hs := (shifted_bounds day months).1
  have hf : firstYear * 12 < (YearMonthDay.ofDayNumber day).monthIndex + 1 := by
    rw [← monthStart_strictMono.lt_iff_lt, monthStart_firstYear]
    exact Int.lt_of_le_of_lt hd.1 hb.2
  have hy : (YearMonthDay.ofDayNumber day).monthIndex + months < lastYear * 12 + 12 := by
    rw [← monthStart_strictMono.lt_iff_lt, monthStart_lastYear]
    have := hl.2
    omega
  simp only [firstYear, lastYear, Duration.maxMonths] at *
  omega

/-- The bounds of durations leave room for all moves between supported days. -/
theorem bounds_of_shifted_le {day laterDay months days : Int} (hd : Supported day) (hl : Supported laterDay)
    (hm : 0 ≤ months) (hk : 0 ≤ days) (h : shifted day months days ≤ laterDay) :
    (0 ≤ months ∧ months ≤ Duration.maxMonths) ∧ (0 ≤ days ∧ days ≤ Duration.maxDays) := by
  have hsup := (supported_shifted hd hl hm hk h).1
  rw [shifted_add] at h
  have hlt := months_lt_of_shifted_le hd hl (show shifted day months 0 ≤ laterDay by omega)
  simp only [Supported, firstDay, lastDay, Duration.maxDays] at *
  omega

theorem bounds_of_isSplit {day nanos laterDay laterNanos months days : Int} (hd : Supported day)
    (hl : Supported laterDay) (hm : 0 ≤ months) (h : IsSplit day nanos laterDay laterNanos months days) :
    (0 ≤ months ∧ months ≤ Duration.maxMonths) ∧ (0 ≤ days ∧ days ≤ Duration.maxDays) :=
  bounds_of_shifted_le hd hl hm h.days_nonneg (le_of_not_passes h.not_passes)

theorem isSplit_self {day nanos : Int} : IsSplit day nanos day nanos 0 0 := by
  have h := shifted_add_28_le day 0
  simp only [shifted_zero, Int.add_zero] at h
  refine ⟨Int.le_refl 0, ?_, Or.inl (by omega), ?_⟩
  · rw [shifted_zero]
    unfold Passes
    omega
  · rw [shifted_zero]
    exact Or.inl (by omega)

end Calendar

namespace LocalDateTime

theorem not_passes_iff_le {a b : LocalDateTime} :
    ¬Passes a.date.dayNumber a.time.nanos b.date.dayNumber b.time.nanos ↔ a ≤ b := by
  have h0 := a.time.nonneg
  have h1 := a.time.lt_day
  have h2 := b.time.nonneg
  have h3 := b.time.lt_day
  show _ ↔ a.epochNanos ≤ b.epochNanos
  simp only [Passes, epochNanos, nanosPerDay] at *
  omega

theorem date_le_of_le {a b : LocalDateTime} (h : a ≤ b) : a.date.dayNumber ≤ b.date.dayNumber :=
  le_of_not_passes (not_passes_iff_le.mpr h)

theorem ext_date_time {a b : LocalDateTime} (hd : a.date = b.date) (ht : a.time = b.time) : a = b := by
  cases a
  cases b
  cases hd
  cases ht
  rfl

theorem shiftDate_eq_ok {l s : LocalDateTime} {m k : Int} :
    l.shiftDate m k = .ok s ↔ Supported (shifted l.date.dayNumber m 0) ∧
      s.date.dayNumber = shifted l.date.dayNumber m k ∧ s.time = l.time := by
  dsimp only [shiftDate, Date.shift]
  rw [bind_eq_ok]
  constructor
  · rintro ⟨date, hd, hs⟩
    cases hs
    obtain ⟨hm, hday⟩ := (shift_eq_ok (supported_dayNumber _)).mp hd
    exact ⟨hm, hday, rfl⟩
  · rintro ⟨hm, hd, ht⟩
    refine ⟨s.date, (shift_eq_ok (supported_dayNumber _)).mpr ⟨hm, hd⟩, ?_⟩
    rw [← ht]
    rfl

theorem shiftDate_error_kind {l : LocalDateTime} {m d : Int} {f : Fault} (hm : m.natAbs ≤ 10 ^ 30)
    (h : l.shiftDate m d = .error f) : (Error.fault f).kind = .rangeOverflow := by
  rcases bind_eq_error.mp h with h | ⟨date, -, h⟩
  · exact shift_error_kind (supported_dayNumber _) hm h
  · cases h

theorem shiftDate_zero {l s : LocalDateTime} (h : l.shiftDate 0 0 = .ok s) : s = l := by
  obtain ⟨-, hd, ht⟩ := shiftDate_eq_ok.mp h
  rw [shifted_zero, Int.add_zero] at hd
  exact ext_date_time (Date.ext_dayNumber hd) ht

theorem epochNanos_sub_of_time_eq {l s : LocalDateTime} (h : l.time = s.time) :
    l.epochNanos - s.epochNanos = (l.date.dayNumber - s.date.dayNumber) * nanosPerDay := by
  simp only [epochNanos, h, nanosPerDay]
  omega

theorem day_le_of_shiftDate {l s : LocalDateTime} {m k : Int} (h : l.shiftDate m k = .ok s) (hm : 0 ≤ m)
    (hk : 0 ≤ k) (hne : ¬(m = 0 ∧ k = 0)) : l.epochNanos + nanosPerDay ≤ s.epochNanos := by
  obtain ⟨-, hd, ht⟩ := shiftDate_eq_ok.mp h
  have hsub := epochNanos_sub_of_time_eq ht
  have hlt : l.date.dayNumber < s.date.dayNumber := by
    rw [hd, shifted_add]
    rcases Int.lt_or_eq_of_le hm with hm | rfl
    · have := add_28_le_shifted hm (n := l.date.dayNumber)
      omega
    · rw [shifted_zero]
      omega
  simp only [nanosPerDay] at *
  omega

theorem exists_shiftDate {l : LocalDateTime} {m k : Int} (hm : Supported (shifted l.date.dayNumber m 0))
    (hk : Supported (shifted l.date.dayNumber m k)) : ∃ s, l.shiftDate m k = .ok s ∧
      s.date.dayNumber = shifted l.date.dayNumber m k ∧ s.time = l.time :=
  ⟨⟨⟨_, hk.1, hk.2⟩, l.time⟩, shiftDate_eq_ok.mpr ⟨hm, rfl, rfl⟩, rfl, rfl⟩

theorem shiftDate_reaches_iff (b a : LocalDateTime) (m k : Int) (hm : 0 ≤ m) (hk : 0 ≤ k) :
    (∃ s, b.shiftDate m k = .ok s ∧ s ≤ a) ↔
      ¬Passes (shifted b.date.dayNumber m k) b.time.nanos a.date.dayNumber a.time.nanos := by
  constructor
  · rintro ⟨s, hs, hle⟩
    obtain ⟨-, hd, ht⟩ := shiftDate_eq_ok.mp hs
    rw [← hd, ← ht]
    exact not_passes_iff_le.mpr hle
  · intro hp
    have hsup := supported_shifted (supported_dayNumber b.date) (supported_dayNumber a.date) hm hk
      (le_of_not_passes hp)
    refine ⟨⟨⟨_, hsup.2.1, hsup.2.2⟩, b.time⟩, ?_, not_passes_iff_le.mp hp⟩
    exact shiftDate_eq_ok.mpr ⟨hsup.1, rfl, rfl⟩

theorem add_eq_ok {l r : LocalDateTime} {d : Duration} :
    l.add d = .ok r ↔ ∃ s, l.shiftDate d.months d.days = .ok s ∧ r.epochNanos = s.epochNanos + d.nanos := by
  dsimp only [add, shiftNanos]
  rw [bind_eq_ok]
  simp only [ofEpochNanos_eq_ok]

/-- Where days that would pass the end stop, less than a day is left. -/
theorem epochNanos_sub_lt {a b s : LocalDateTime} {m k : Int}
    (h : IsSplit b.date.dayNumber b.time.nanos a.date.dayNumber a.time.nanos m k) (hs : b.shiftDate m k = .ok s) :
    a.epochNanos - s.epochNanos < nanosPerDay := by
  obtain ⟨-, hd, ht⟩ := shiftDate_eq_ok.mp hs
  have hp := h.passes_day
  rw [shifted_add, ← Int.add_assoc, ← shifted_add, ← hd, ← ht] at hp
  have h0 := s.time.nonneg
  have h1 := a.time.lt_day
  simp only [Passes, epochNanos, nanosPerDay] at *
  omega

theorem exists_since {a b : LocalDateTime} (h : b ≤ a) :
    ∃ d, a.since b = .ok d ∧ b.add d = .ok a ∧ d.nanos < nanosPerDay ∧ 0 ≤ d.months ∧ 0 ≤ d.nanos ∧
      IsSplit b.date.dayNumber b.time.nanos a.date.dayNumber a.time.nanos d.months d.days := by
  have hb := supported_dayNumber b.date
  have ha := supported_dayNumber a.date
  obtain ⟨m, k, hmk, hm, hs⟩ := exists_monthsDaysBetween hb ha (not_passes_iff_le.mpr h)
  obtain ⟨anchor, hanchor, hle⟩ := (shiftDate_reaches_iff b a m k hm hs.days_nonneg).mpr hs.not_passes
  have hle : anchor.epochNanos ≤ a.epochNanos := hle
  have hlt := epochNanos_sub_lt hs hanchor
  obtain ⟨d, hdm, hdk, hdn⟩ := Duration.exists_ofParts (bounds_of_isSplit hb ha hm hs).1
    (bounds_of_isSplit hb ha hm hs).2 (Duration.nanos_bounds (Int.sub_nonneg.mpr hle) hlt)
  refine ⟨d, ?_, ?_, by rwa [hdn], by rwa [hdm], by omega, by rwa [hdm, hdk]⟩
  · dsimp only [since]
    rw [bind_eq_ok]
    refine ⟨_, hmk, bind_eq_ok.mpr ⟨anchor, hanchor, ?_⟩⟩
    exact Duration.ofParts_eq_ok.mpr ⟨hdm, hdk, hdn⟩
  · rw [add_eq_ok, hdm, hdk, hdn]
    exact ⟨anchor, hanchor, by omega⟩

theorem diff_of_le {a b : LocalDateTime} (h : b ≤ a) : a.diff b = a.since b := by
  have hlt : ¬a < b := Int.not_lt.mpr h
  rw [diff, if_neg hlt]

theorem since_self (a : LocalDateTime) : a.since a = .ok Duration.zero := by
  obtain ⟨d, hd, hadd, -, -, -, hs⟩ := exists_since (show a.epochNanos ≤ a.epochNanos from Int.le_refl _)
  obtain ⟨hm, hk⟩ := hs.unique isSplit_self
  obtain ⟨s, hs, hn⟩ := add_eq_ok.mp hadd
  rw [hm, hk] at hs
  have he := LocalDateTime.shiftDate_zero hs
  rw [he] at hn
  rw [hd]
  exact congrArg Except.ok (Duration.ext_parts hm hk (show d.nanos = 0 by omega))

end LocalDateTime

namespace Date

theorem shift_reaches_iff (b a : Date) (m k : Int) (hm : 0 ≤ m) (hk : 0 ≤ k) :
    (∃ s, b.shift m k = .ok s ∧ s ≤ a) ↔ ¬Passes (shifted b.dayNumber m k) 0 a.dayNumber 0 := by
  constructor
  · rintro ⟨s, hs, hle⟩
    have hle : s.dayNumber ≤ a.dayNumber := hle
    rw [← ((shift_eq_ok (supported_dayNumber b)).mp hs).2]
    unfold Passes
    omega
  · intro hp
    have hsup := supported_shifted (supported_dayNumber b) (supported_dayNumber a) hm hk (le_of_not_passes hp)
    obtain ⟨s, hs, hd⟩ := exists_shift_eq_ok (supported_dayNumber b) hsup.1 hsup.2
    refine ⟨s, hs, ?_⟩
    show s.dayNumber ≤ a.dayNumber
    rw [hd]
    exact le_of_not_passes hp

theorem exists_since {a b : Date} (h : b ≤ a) :
    ∃ d, a.since b = .ok d ∧ b.add d = .ok a ∧ d.nanos = 0 ∧ 0 ≤ d.months ∧
      IsSplit b.dayNumber 0 a.dayNumber 0 d.months d.days := by
  have hb := supported_dayNumber b
  have ha := supported_dayNumber a
  have h : b.dayNumber ≤ a.dayNumber := h
  obtain ⟨m, k, hmk, hm, hs⟩ := exists_monthsDaysBetween hb ha
    (show ¬Passes b.dayNumber 0 a.dayNumber 0 by unfold Passes; omega)
  have hbounds := bounds_of_isSplit hb ha hm hs
  obtain ⟨d, rfl, rfl, hdn⟩ := Duration.exists_ofParts hbounds.1 hbounds.2 (by decide : (0 : Int) ≤ 0 ∧ _)
  refine ⟨d, ?_, ?_, hdn, hm, hs⟩
  · dsimp only [since]
    rw [bind_eq_ok]
    exact ⟨_, hmk, Duration.ofParts_eq_ok.mpr ⟨rfl, rfl, hdn⟩⟩
  · have hle := le_of_not_passes hs.not_passes
    have hreached : a.dayNumber = shifted b.dayNumber d.months d.days := by
      have hp := hs.passes_day
      rw [shifted_add, ← Int.add_assoc, ← shifted_add] at hp
      unfold Passes at hp
      omega
    rw [add, if_pos hdn]
    exact (shift_eq_ok hb).mpr ⟨(supported_shifted hb ha hm hs.days_nonneg hle).1, hreached⟩

theorem diff_of_le {a b : Date} (h : b ≤ a) : a.diff b = a.since b := by
  have hlt : ¬a < b := Int.not_lt.mpr h
  rw [diff, if_neg hlt]

theorem since_self (a : Date) : a.since a = .ok Duration.zero := by
  obtain ⟨d, hd, -, hn, -, hs⟩ := exists_since (show a.dayNumber ≤ a.dayNumber from Int.le_refl _)
  obtain ⟨hm, hk⟩ := hs.unique isSplit_self
  rw [hd]
  exact congrArg Except.ok (Duration.ext_parts hm hk hn)

end Date

namespace OffsetDateTime

theorem toOffset_eq_ok {x y : OffsetDateTime} {o : Offset} :
    x.toOffset o = .ok y ↔ y.nanos = x.nanos ∧ y.offset = o := by
  rw [toOffset, ofInstant_eq_ok]
  constructor
  · rintro ⟨hi, ho⟩
    exact ⟨congrArg Instant.nanos hi, ho⟩
  · rintro ⟨hn, ho⟩
    exact ⟨Instant.ext_nanos hn, ho⟩

theorem wall_le_wall {x y : OffsetDateTime} (ho : x.offset = y.offset) (h : x.nanos ≤ y.nanos) :
    x.wall ≤ y.wall := by
  show x.wall.epochNanos ≤ y.wall.epochNanos
  simp only [nanos, toInstant, ho] at h
  omega

theorem add_since {a b start : OffsetDateTime} (h : b.nanos ≤ a.nanos) (hs : b.toOffset a.offset = .ok start) :
    ∃ d, a.since b = .ok d ∧ start.add d = .ok a := by
  obtain ⟨hn, ho⟩ := toOffset_eq_ok.mp hs
  have hle : start.wall ≤ a.wall := wall_le_wall ho (by omega)
  obtain ⟨d, hd, hadd, -⟩ := LocalDateTime.exists_since hle
  refine ⟨d, ?_, ?_⟩
  · dsimp only [since]
    rw [bind_eq_ok]
    exact ⟨start, hs, by rw [LocalDateTime.diff_of_le hle, hd]⟩
  · dsimp only [add]
    rw [bind_eq_ok]
    exact ⟨a.wall, hadd, of_eq_ok.mpr ⟨rfl, ho.symm⟩⟩

/-- The same instant can always be read at the offset of the other value, which is that value. -/
theorem since_eq_zero {a b : OffsetDateTime} (h : a.nanos = b.nanos) : a.since b = .ok Duration.zero := by
  have hs : b.toOffset a.offset = .ok a := toOffset_eq_ok.mpr ⟨h, rfl⟩
  have hw : a.wall ≤ a.wall := Int.le_refl a.wall.epochNanos
  dsimp only [since]
  rw [bind_eq_ok]
  exact ⟨a, hs, by rw [LocalDateTime.diff_of_le hw, LocalDateTime.since_self]⟩

end OffsetDateTime

/-- A distance that is taken from the earlier value and negated where needed has the sign of its order. -/
theorem neg_diff {α : Type} (lt : α → α → Prop) [DecidableRel lt]
    (since : α → α → Except Fault Duration) (hasymm : ∀ a b, lt a b → ¬lt b a)
    (heq : ∀ a b, ¬lt a b → ¬lt b a → since a b = .ok Duration.zero)
    {a b : α} {d : Duration} (h : (if lt a b then (-·) <$> since b a else since a b) = .ok d) :
    (if lt b a then (-·) <$> since a b else since b a) = .ok (-d) := by
  by_cases hab : lt a b
  · rw [if_pos hab] at h
    obtain ⟨e, he, rfl⟩ := map_eq_ok.mp h
    rw [if_neg (hasymm a b hab), Duration.neg_neg]
    exact he
  · rw [if_neg hab] at h
    by_cases hba : lt b a
    · rw [if_pos hba]
      exact map_eq_ok.mpr ⟨d, h, rfl⟩
    · rw [if_neg hba, heq b a hba hab]
      rw [heq a b hab hba] at h
      cases h
      rfl

theorem Date.neg_diff {a b : Date} {d : Duration} (h : a.diff b = .ok d) : b.diff a = .ok (-d) := by
  refine CivilTime.neg_diff (· < ·) Date.since (fun _ _ => Int.lt_asymm) (fun a b hab hba => ?_) h
  rw [Date.ext_dayNumber (Int.le_antisymm (Int.not_lt.mp hba) (Int.not_lt.mp hab))]
  exact Date.since_self b

theorem LocalDateTime.neg_diff {a b : LocalDateTime} {d : Duration} (h : a.diff b = .ok d) :
    b.diff a = .ok (-d) := by
  refine CivilTime.neg_diff (· < ·) LocalDateTime.since (fun _ _ => Int.lt_asymm) (fun a b hab hba => ?_) h
  rw [LocalDateTime.ext_epochNanos (Int.le_antisymm (Int.not_lt.mp hba) (Int.not_lt.mp hab))]
  exact LocalDateTime.since_self b

theorem OffsetDateTime.neg_diff {a b : OffsetDateTime} {d : Duration} (h : a.diff b = .ok d) :
    b.diff a = .ok (-d) := by
  refine CivilTime.neg_diff (fun a b : OffsetDateTime => a.nanos < b.nanos) OffsetDateTime.since
    (fun _ _ => Int.lt_asymm) (fun a b hab hba => ?_) h
  exact OffsetDateTime.since_eq_zero (Int.le_antisymm (Int.not_lt.mp hba) (Int.not_lt.mp hab))

/-- What the later of two values makes of the earlier one is known of both, if there is a first and a last. -/
theorem exists_diff {α : Type} [LE α] (diff : α → α → Except Fault Duration)
    (hneg : ∀ {a b d}, diff a b = .ok d → diff b a = .ok (-d)) (htotal : ∀ a b : α, b ≤ a ∨ a ≤ b)
    {P : α → α → Duration → Prop} (h : ∀ {a b}, b ≤ a → ∃ d, diff a b = .ok d ∧ P a b d)
    (a b : α) :
    ∃ d, diff a b = .ok d ∧ diff b a = .ok (-d) ∧ (b ≤ a → P a b d) := by
  by_cases hba : b ≤ a
  · obtain ⟨d, hd, hp⟩ := h hba
    exact ⟨d, hd, hneg hd, fun _ => hp⟩
  · obtain ⟨d, hd, -⟩ := h ((htotal a b).resolve_left hba)
    refine ⟨-d, hneg hd, ?_, fun hle => absurd hle hba⟩
    rw [Duration.neg_neg]
    exact hd

/-- Differences exist, change their sign with the order of the values, and lead from the earlier value to the
later one: as many months as do not pass it, then as many days, then less than a day of time. Values at an
offset are first read at the offset of the later one, and that reading has to exist. -/
theorem exists_diff_isMaximal :
    (∀ a b : Date, ∃ d, a.diff b = .ok d ∧ b.diff a = .ok (-d) ∧
      (b ≤ a → b.add d = .ok a ∧ d.nanos = 0 ∧ d.IsMaximal b.shift a)) ∧
    (∀ a b : LocalDateTime, ∃ d, a.diff b = .ok d ∧ b.diff a = .ok (-d) ∧
      (b ≤ a → b.add d = .ok a ∧ d.nanos < nanosPerDay ∧ d.IsMaximal b.shiftDate a)) ∧
    (∀ a b start : OffsetDateTime, b.nanos ≤ a.nanos → b.toOffset a.offset = .ok start →
      ∃ d, a.diff b = .ok d ∧ b.diff a = .ok (-d) ∧ start.add d = .ok a) := by
  refine ⟨exists_diff Date.diff Date.neg_diff (fun _ _ => Int.le_total _ _) fun h => ?_,
    exists_diff LocalDateTime.diff LocalDateTime.neg_diff (fun _ _ => Int.le_total _ _) fun h => ?_,
    fun a b start h hs => ?_⟩
  · obtain ⟨d, hd, hadd, hn, hm, hsplit⟩ := Date.exists_since h
    rw [← Date.diff_of_le h] at hd
    exact ⟨d, hd, hadd, hn,
      Duration.isMaximal_of_isSplit (Date.shift_reaches_iff _ _) hm (Int.le_of_eq hn.symm) hsplit⟩
  · obtain ⟨d, hd, hadd, hlt, hm, hn, hsplit⟩ := LocalDateTime.exists_since h
    rw [← LocalDateTime.diff_of_le h] at hd
    exact ⟨d, hd, hadd, hlt,
      Duration.isMaximal_of_isSplit (LocalDateTime.shiftDate_reaches_iff _ _) hm hn hsplit⟩
  · obtain ⟨d, hd, hadd⟩ := OffsetDateTime.add_since h hs
    have hd : a.diff b = .ok d := by rwa [OffsetDateTime.diff, if_neg (Int.not_lt.mpr h)]
    exact ⟨d, hd, OffsetDateTime.neg_diff hd, hadd⟩

/-- From noon of 31 January to the midnight after the leap day. -/
theorem exists_diff_over_leap_day :
    let a : LocalDateTime := ⟨⟨2460371, by decide, by decide⟩, TimeOfDay.midnight⟩
    let b : LocalDateTime := ⟨⟨2460341, by decide, by decide⟩, TimeOfDay.noon⟩
    let x : OffsetDateTime := ⟨a, Offset.utc, by decide, by decide⟩
    let y : OffsetDateTime := ⟨b, Offset.utc, by decide, by decide⟩
    (b.date ≤ a.date ∧ ∃ d, a.date.diff b.date = .ok d ∧ b.date.add d = .ok a.date) ∧
      (b ≤ a ∧ ∃ d, a.diff b = .ok d ∧ b.add d = .ok a) ∧
      (y.nanos ≤ x.nanos ∧ y.toOffset x.offset = .ok y ∧ ∃ d, x.diff y = .ok d ∧ y.add d = .ok x) := by
  intro a b x y
  have hdate : b.date ≤ a.date := by decide
  have hreading : b ≤ a := by decide
  have hinstant : y.nanos ≤ x.nanos := by decide
  have hstart : y.toOffset x.offset = .ok y := OffsetDateTime.toOffset_eq_ok.mpr ⟨rfl, rfl⟩
  obtain ⟨d, hd, -, hadd⟩ := exists_diff_isMaximal.1 a.date b.date
  obtain ⟨e, he, -, hadd'⟩ := exists_diff_isMaximal.2.1 a b
  obtain ⟨f, hf, -, hadd''⟩ := exists_diff_isMaximal.2.2 x y y hinstant hstart
  exact ⟨⟨hdate, d, hd, (hadd hdate).1⟩, ⟨hreading, e, he, (hadd' hreading).1⟩,
    ⟨hinstant, hstart, f, hf, hadd''⟩⟩

end CivilTime
