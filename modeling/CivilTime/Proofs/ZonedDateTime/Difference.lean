/- When the distance to a later value of the same zone can be split, and that it then leads back to it. -/
import CivilTime.Proofs.ZonedDateTime.Failure

namespace CivilTime

namespace ZonedDateTime
open Calendar

section
variable {b : ZonedDateTime} {origin reached : Instant} {start : LocalDateTime} {m d j : Int}

theorem exists_settle_of_le (h : anchor b.resolver b.zoneId origin start m d = .ok reached)
    (hle : reached.nanos ≤ b.nanos) (hm : 0 ≤ m ∧ m ≤ Duration.maxMonths)
    (hd : 0 ≤ d ∧ d ≤ Duration.maxDays) : ∃ r, settle b origin start m d = .ok r := by
  have h0 := reached.firstNanos_le
  have h1 := b.instant.le_lastNanos
  have hn : 0 ≤ b.nanos - reached.nanos ∧ b.nanos - reached.nanos ≤ Duration.maxNanos := by
    simp only [nanos, Instant.firstNanos, Instant.lastNanos, Duration.maxNanos, Duration.maxDays, firstDay,
      lastDay, epochDay, nanosPerDay] at *
    omega
  obtain ⟨r, hr⟩ := Duration.exists_ofParts hm hd hn
  refine ⟨r, ?_⟩
  rw [settle_of_le h hle, Duration.ofParts_eq_ok.mpr hr]
  rfl

/-- If every number of days down to one that does not arrive past the later value can be tried, the search
ends there or before. -/
theorem exists_settle_of_descent (hm : 0 ≤ m ∧ m ≤ Duration.maxMonths) (hj : 0 ≤ j) (hjd : j ≤ d)
    (h : anchor b.resolver b.zoneId origin start m j = .ok reached) (hle : reached.nanos ≤ b.nanos)
    (hd : d ≤ Duration.maxDays)
    (htried : ∀ k, j < k → k ≤ d → ∃ i, anchor b.resolver b.zoneId origin start m k = .ok i) :
    ∃ r, settle b origin start m d = .ok r := by
  induction d, hjd using Int.leInduction with
  | base => exact exists_settle_of_le h hle hm ⟨hj, hd⟩
  | succ d hjd ih =>
    obtain ⟨i, hi⟩ := htried (d + 1) (by omega) (Int.le_refl _)
    by_cases hib : i.nanos ≤ b.nanos
    · exact exists_settle_of_le hi hib hm ⟨by omega, hd⟩
    · rw [settle_of_past_day hi (Int.not_le.mp hib) (by omega), Int.add_sub_cancel]
      exact ih (by omega) fun k hjk hkd => htried k hjk (by omega)

/-- Where all numbers of days arrive past the later value, the search goes on a month before. -/
theorem settle_of_all_past (hd : 0 ≤ d)
    (h : ∀ k, 0 ≤ k → k ≤ d →
      ∃ i, anchor b.resolver b.zoneId origin start m k = .ok i ∧ b.nanos < i.nanos)
    {date : Date} (hdate : start.date.shift (m - 1) 0 = .ok date) : settle b origin start m d =
      settle b origin start (m - 1) (b.wall.date.dayNumber - date.dayNumber) := by
  induction d, hd using Int.leInduction with
  | base =>
    obtain ⟨i, hi, hlt⟩ := h 0 (Int.le_refl 0) (Int.le_refl 0)
    exact settle_of_past_month hi hlt (Int.lt_irrefl 0) hdate
  | succ d hd ih =>
    obtain ⟨i, hi, hlt⟩ := h (d + 1) (by omega) (Int.le_refl _)
    rw [settle_of_past_day hi hlt (by omega), Int.add_sub_cancel]
    exact ih fun k hk hkd => h k hk (by omega)

end

variable {a b : ZonedDateTime}

theorem exists_anchor_of_settle {origin : Instant} {start : LocalDateTime} {m d : Int} {r : Duration}
    (h : settle b origin start m d = .ok r) : ∃ i, anchor b.resolver b.zoneId origin start m d = .ok i := by
  cases ha : anchor b.resolver b.zoneId origin start m d with
  | ok i => exact ⟨i, rfl⟩
  | error e =>
    rw [settle_of_error ha] at h
    cases h

/-- From before the earlier value no search can come back to the later one. -/
theorem settle_ne_ok_of_neg {m d : Int} {r : Duration} (hab : a.nanos ≤ b.nanos) (hm : m < 0) :
    settle b a.instant a.wall m d ≠ .ok r := by
  intro h
  obtain ⟨hrm, reached, hreached, hle, hn⟩ := settle_eq_ok h
  obtain ⟨l, hl, hlanding⟩ := (anchor_eq_ok (by omega)).mp hreached
  obtain ⟨-, hd, ht⟩ := LocalDateTime.shiftDate_eq_ok.mp hl
  have hsign := r.oneSign
  have hback : l.date.dayNumber + 28 ≤ a.wall.date.dayNumber := by
    have h1 := shifted_add_28_le a.wall.date.dayNumber (-1)
    have h2 := (shifted_strictMono a.wall.date.dayNumber).monotone (show r.months ≤ -1 by omega)
    simp only [Int.reduceNeg, Int.reduceAdd, shifted_zero, Int.add_zero] at h1 h2
    rw [hd, shifted_add]
    simp only [Duration.OneSign] at hsign
    omega
  have hsub := LocalDateTime.epochNanos_sub_of_time_eq ht
  have hl := landing_near hlanding
  have ha := a.wall_near
  simp only [Duration.OneSign, nanosPerDay] at *
  omega

/-- Readings between those of two values that are a day from both ends land in range. -/
theorem exists_landing_of_between {l : LocalDateTime} (h0 : a.wall.epochNanos + nanosPerDay ≤ l.epochNanos)
    (h1 : l.date.dayNumber < b.wall.date.dayNumber) : ∃ i, b.landing l = .ok i := by
  have hfirst := a.wall.epochNanos_bounds.1
  have hlast := (LocalDateTime.mk b.wall.date l.time).epochNanos_bounds.2
  refine exists_landing (by omega) ?_
  simp only [LocalDateTime.epochNanos, nanosPerDay] at *
  omega

/-- What it takes to split the distance from one value to a later one of the same zone. -/
structure Splittable (a b : ZonedDateTime) : Prop where
  /-- Clocks that were set back in between do not show the later value as the earlier reading. -/
  wall_le : a.wall ≤ b.wall
  /-- The readings at the same time of day stand for instants in range. -/
  days_land : ∀ l : LocalDateTime, l.time = a.wall.time → a.wall < l → l ≤ b.wall → ∃ i, b.landing l = .ok i
  /-- Where whole months, and all days after them, arrive past the later value, its own date is tried. -/
  month_back_lands : ∀ m s, 0 < m → a.wall.shiftDate m 0 = .ok s → s ≤ b.wall →
    (∀ l : LocalDateTime, l.time = a.wall.time → s ≤ l → l ≤ b.wall →
      ∃ i, b.landing l = .ok i ∧ b.nanos < i.nanos) →
    ∃ i, b.landing ⟨b.wall.date, a.wall.time⟩ = .ok i

/-- The split of two readings, before it is looked at on the time line. -/
def IsWallSplit (a b : ZonedDateTime) (m d : Int) : Prop :=
  IsSplit a.wall.date.dayNumber a.wall.time.nanos b.wall.date.dayNumber b.wall.time.nanos m d

theorem shiftDate_of_time_eq {m : Int} {s l : LocalDateTime} (hshift : a.wall.shiftDate m 0 = .ok s)
    (ht : l.time = a.wall.time) : a.wall.shiftDate m (l.date.dayNumber - s.date.dayNumber) = .ok l := by
  obtain ⟨hsup, hd, -⟩ := LocalDateTime.shiftDate_eq_ok.mp hshift
  refine LocalDateTime.shiftDate_eq_ok.mpr ⟨hsup, ?_, ht⟩
  rw [shifted_add, ← hd]
  omega

section
variable {m d : Int} (hs : IsWallSplit a b m d) (hm : 0 ≤ m)
include hs

/-- A reading at the same time of day that months and days lead to is not past the split's own. -/
theorem IsWallSplit.le_days {l : LocalDateTime} {k : Int} (hl : a.wall.shiftDate m k = .ok l)
    (hle : l ≤ b.wall) : k ≤ d := by
  obtain ⟨-, hd, ht⟩ := LocalDateTime.shiftDate_eq_ok.mp hl
  refine IsSplit.le_days hs ?_
  rw [← hd, ← ht]
  exact LocalDateTime.not_passes_iff_le.mpr hle

theorem IsWallSplit.le_months {l : LocalDateTime} {k : Int} (hl : a.wall.shiftDate k 0 = .ok l)
    (hle : l ≤ b.wall) : k ≤ m := by
  obtain ⟨-, hd, ht⟩ := LocalDateTime.shiftDate_eq_ok.mp hl
  refine IsSplit.le_months hs ?_
  rw [← hd, ← ht]
  exact LocalDateTime.not_passes_iff_le.mpr hle

include hm

theorem IsWallSplit.exists_shiftDate {k : Int} (hk : 0 ≤ k) (hkd : k ≤ d) :
    ∃ l, a.wall.shiftDate m k = .ok l ∧ l ≤ b.wall := by
  refine (LocalDateTime.shiftDate_reaches_iff a.wall b.wall m k hm hk).mpr fun hp => ?_
  refine IsSplit.not_passes hs (hp.mono ?_)
  rw [shifted_add, shifted_add a.wall.date.dayNumber m d]
  omega

end

section
variable {m d : Int} (hs : IsWallSplit a b m d) (hpos : 0 < m)
include hs hpos

/-- All days of the split arrive past the later value if the readings do to which they lead. -/
theorem IsWallSplit.anchors_past_iff {s : LocalDateTime}
    (hshift : a.wall.shiftDate m 0 = .ok s) :
    (∀ k, 0 ≤ k → k ≤ d →
      ∃ i, anchor b.resolver b.zoneId a.instant a.wall m k = .ok i ∧ b.nanos < i.nanos) ↔
    ∀ l : LocalDateTime, l.time = a.wall.time → s ≤ l → l ≤ b.wall →
      ∃ i, b.landing l = .ok i ∧ b.nanos < i.nanos := by
  have hanchor {k : Int} {l : LocalDateTime} (hl : a.wall.shiftDate m k = .ok l) :
      anchor b.resolver b.zoneId a.instant a.wall m k = b.landing l :=
    anchor_eq_landing (fun h => Int.lt_irrefl 0 (h.1 ▸ hpos)) hl
  have hst := (LocalDateTime.shiftDate_eq_ok.mp hshift).2.2
  constructor
  · intro h l ht hsl hle
    have hl := shiftDate_of_time_eq hshift ht
    rw [← hanchor hl]
    refine h _ ?_ (hs.le_days hl hle)
    have hsl : s.epochNanos ≤ l.epochNanos := hsl
    have hsub := LocalDateTime.epochNanos_sub_of_time_eq (ht.trans hst.symm)
    simp only [nanosPerDay] at hsub
    omega
  · intro h k hk hkd
    obtain ⟨l, hl, hle⟩ := hs.exists_shiftDate (Int.le_of_lt hpos) hk hkd
    obtain ⟨-, hd, ht⟩ := LocalDateTime.shiftDate_eq_ok.mp hl
    rw [hanchor hl]
    refine h l ht ?_ hle
    have hsub := LocalDateTime.epochNanos_sub_of_time_eq (ht.trans hst.symm)
    rw [hd, (LocalDateTime.shiftDate_eq_ok.mp hshift).2.1, shifted_add] at hsub
    show s.epochNanos ≤ l.epochNanos
    simp only [nanosPerDay] at hsub
    omega

/-- A month before the split there are almost as many days to the later value's date as a month has. -/
theorem IsWallSplit.exists_month_before : ∃ date, a.wall.date.shift (m - 1) 0 = .ok date ∧
    a.wall.date.dayNumber ≤ date.dayNumber ∧ date.dayNumber + 28 ≤ b.wall.date.dayNumber ∧
    ∀ k, 0 ≤ k → date.dayNumber + k ≤ b.wall.date.dayNumber →
      ∃ l, a.wall.shiftDate (m - 1) k = .ok l ∧
        l.date.dayNumber = date.dayNumber + k ∧ l.time = a.wall.time := by
  have ha := supported_dayNumber a.wall.date
  have hb := supported_dayNumber b.wall.date
  have hback := shifted_sub_one_le a.wall.date.dayNumber m
  have hle := le_of_not_passes (IsSplit.not_passes_months hs)
  obtain ⟨date, hdate, hday⟩ := exists_shift_sub_one ha hb hpos hle
  refine ⟨date, hdate, ?_, by omega, ?_⟩
  · rw [hday]
    exact le_shifted (by omega) (Int.le_refl 0)
  · intro k hk hkb
    have hshifted : shifted a.wall.date.dayNumber (m - 1) k = date.dayNumber + k := by rw [shifted_add, hday]
    have hsup' := supported_shifted ha hb (show 0 ≤ m - 1 by omega) hk (by rw [hshifted]; exact hkb)
    obtain ⟨l, hl, hd, ht⟩ := LocalDateTime.exists_shiftDate hsup'.1 hsup'.2
    exact ⟨l, hl, by rw [hd, hshifted], ht⟩

/-- With the later value's own date landing in range, all days of the month before do. -/
theorem IsWallSplit.anchor_month_before {date : Date} (hdate : a.wall.date.shift (m - 1) 0 = .ok date)
    (hland : ∃ i, b.landing ⟨b.wall.date, a.wall.time⟩ = .ok i) {k : Int} (hk : 0 < k)
    (hkd : k ≤ b.wall.date.dayNumber - date.dayNumber) : ∃ l i,
      anchor b.resolver b.zoneId a.instant a.wall (m - 1) k = .ok i ∧ b.landing l = .ok i ∧
      l.date.dayNumber = date.dayNumber + k := by
  obtain ⟨date', hdate', -, -, hreading⟩ := hs.exists_month_before hpos
  obtain rfl : date = date' := Except.ok.inj (hdate.symm.trans hdate')
  obtain ⟨l, hl, hd, ht⟩ := hreading k (by omega) (by omega)
  have hlanding : ∃ i, b.landing l = .ok i := by
    rcases Int.lt_or_eq_of_le hkd with hlt | rfl
    · exact exists_landing_of_between (LocalDateTime.day_le_of_shiftDate hl (by omega) (by omega) (by omega))
        (by omega)
    · have hday : l.date.dayNumber = b.wall.date.dayNumber := by omega
      have he : l = ⟨b.wall.date, a.wall.time⟩ := LocalDateTime.ext_date_time (Date.ext_dayNumber hday) ht
      rwa [he]
  obtain ⟨i, hi⟩ := hlanding
  exact ⟨l, i, (anchor_eq_landing (by omega) hl).trans hi, hi, hd⟩

/-- Three days before the later value's date the search ends, so that no second month is taken back. -/
theorem IsWallSplit.exists_settle_month_before {date : Date} (hdate : a.wall.date.shift (m - 1) 0 = .ok date)
    (hland : ∃ i, b.landing ⟨b.wall.date, a.wall.time⟩ = .ok i) :
    ∃ r, settle b a.instant a.wall (m - 1) (b.wall.date.dayNumber - date.dayNumber) = .ok r := by
  obtain ⟨date', hdate', -, hgap, -⟩ := hs.exists_month_before hpos
  obtain rfl : date = date' := Except.ok.inj (hdate.symm.trans hdate')
  have hmonths : 0 ≤ m - 1 ∧ m - 1 ≤ Duration.maxMonths := by
    have := months_lt_of_shifted_le (supported_dayNumber a.wall.date) (supported_dayNumber b.wall.date)
      (le_of_not_passes (IsSplit.not_passes_months hs))
    omega
  have hdays : b.wall.date.dayNumber - date.dayNumber ≤ Duration.maxDays := by
    have := date.firstDay_le
    have := b.wall.date.le_lastDay
    simp only [firstDay, lastDay, Duration.maxDays] at *
    omega
  obtain ⟨l, i, hanchor, hi, hd⟩ := hs.anchor_month_before hpos hdate hland
    (show 0 < b.wall.date.dayNumber - date.dayNumber - 3 by omega) (by omega)
  have hlt : i.nanos < b.nanos := by
    refine landing_lt hi ?_
    have h0 := l.time.lt_day
    have h1 := b.wall.time.nonneg
    simp only [LocalDateTime.epochNanos, nanosPerDay] at *
    omega
  refine exists_settle_of_descent hmonths (by omega) (by omega) hanchor (Int.le_of_lt hlt) hdays ?_
  intro k hk hkd
  obtain ⟨-, i', hanchor', -⟩ := hs.anchor_month_before hpos hdate hland (show 0 < k by omega) hkd
  exact ⟨i', hanchor'⟩

end

section
variable {m d : Int} (hs : IsWallSplit a b m d) (hm : 0 ≤ m)
include hs hm

theorem IsWallSplit.exists_settle (hab : a.nanos ≤ b.nanos) (h : Splittable a b) :
    ∃ r, settle b a.instant a.wall m d = .ok r := by
  have hbounds := bounds_of_isSplit (supported_dayNumber a.wall.date) (supported_dayNumber b.wall.date) hm hs
  have hanchor (k : Int) (hk : 0 ≤ k) (hkd : k ≤ d) :
      ∃ i, anchor b.resolver b.zoneId a.instant a.wall m k = .ok i := by
    by_cases hne : m = 0 ∧ k = 0
    · obtain ⟨rfl, rfl⟩ := hne
      exact ⟨_, anchor_zero _ _ _⟩
    · obtain ⟨l, hl, hle⟩ := hs.exists_shiftDate hm hk hkd
      have hday := LocalDateTime.day_le_of_shiftDate hl hm hk hne
      have hlt : a.wall.epochNanos < l.epochNanos := Int.lt_of_lt_of_le (by simp [nanosPerDay]) hday
      obtain ⟨i, hi⟩ := h.days_land l (LocalDateTime.shiftDate_eq_ok.mp hl).2.2 hlt hle
      exact ⟨i, (anchor_eq_landing hne hl).trans hi⟩
  by_cases hsome : ∃ j, 0 ≤ j ∧ j ≤ d ∧
      ∃ i, anchor b.resolver b.zoneId a.instant a.wall m j = .ok i ∧ i.nanos ≤ b.nanos
  · obtain ⟨j, hj, hjd, i, hi, hle⟩ := hsome
    exact exists_settle_of_descent hbounds.1 hj hjd hi hle hbounds.2.2
      fun k hjk hkd => hanchor k (by omega) hkd
  · have hpast (k : Int) (hk : 0 ≤ k) (hkd : k ≤ d) :
        ∃ i, anchor b.resolver b.zoneId a.instant a.wall m k = .ok i ∧ b.nanos < i.nanos := by
      obtain ⟨i, hi⟩ := hanchor k hk hkd
      exact ⟨i, hi, Int.not_le.mp fun hle => hsome ⟨k, hk, hkd, i, hi, hle⟩⟩
    have hpos : 0 < m := by
      refine Int.lt_iff_le_and_ne.mpr ⟨hm, ?_⟩
      rintro rfl
      exact hsome ⟨0, Int.le_refl 0, hs.days_nonneg, a.instant, anchor_zero _ _ _, hab⟩
    obtain ⟨s, hshift, hle⟩ := hs.exists_shiftDate hm (Int.le_refl 0) hs.days_nonneg
    have hland := h.month_back_lands m s hpos hshift hle ((hs.anchors_past_iff hpos hshift).mp hpast)
    obtain ⟨date, hdate, -⟩ := hs.exists_month_before hpos
    rw [settle_of_all_past hs.days_nonneg hpast hdate]
    exact hs.exists_settle_month_before hpos hdate hland

/-- The last of the readings is the split's own, and all others land in range anyway. -/
theorem IsWallSplit.days_land (h : ∃ i, anchor b.resolver b.zoneId a.instant a.wall m d = .ok i)
    (l : LocalDateTime) (ht : l.time = a.wall.time) (hlt : a.wall < l) (hle : l ≤ b.wall) :
    ∃ i, b.landing l = .ok i := by
  obtain ⟨w, hw, hwle⟩ := hs.exists_shiftDate hm hs.days_nonneg (Int.le_refl d)
  obtain ⟨-, hwd, hwt⟩ := LocalDateTime.shiftDate_eq_ok.mp hw
  have hlast : l.date.dayNumber ≤ w.date.dayNumber := by
    by_contra hc
    refine LocalDateTime.not_passes_iff_le.mpr hle ?_
    rw [ht]
    refine (IsSplit.passes_day hs).mono ?_
    rw [shifted_add]
    rw [shifted_add] at hwd
    omega
  have hlt : a.wall.epochNanos < l.epochNanos := hlt
  have hsub := LocalDateTime.epochNanos_sub_of_time_eq ht
  rcases Int.lt_or_eq_of_le hlast with hday | hday
  · obtain ⟨i, hi⟩ : ∃ i, b.landing l = .ok i := by
      refine exists_landing_of_between ?_ (b := b) (a := a) ?_
      · simp only [nanosPerDay] at *
        omega
      · have := le_of_not_passes (IsSplit.not_passes hs)
        omega
    exact ⟨i, hi⟩
  · obtain rfl : l = w := LocalDateTime.ext_date_time (Date.ext_dayNumber hday) (ht.trans hwt.symm)
    have hne : ¬(m = 0 ∧ d = 0) := by
      rintro ⟨rfl, rfl⟩
      rw [LocalDateTime.shiftDate_zero hw] at hlt
      exact Int.lt_irrefl _ hlt
    rwa [← anchor_eq_landing hne hw]

theorem IsWallSplit.month_back_lands {r : Duration} (h : settle b a.instant a.wall m d = .ok r) {k : Int}
    {s : LocalDateTime} (hk : 0 < k) (hshift : a.wall.shiftDate k 0 = .ok s) (hle : s ≤ b.wall)
    (hpast : ∀ l : LocalDateTime, l.time = a.wall.time → s ≤ l → l ≤ b.wall →
      ∃ i, b.landing l = .ok i ∧ b.nanos < i.nanos) :
    ∃ i, b.landing ⟨b.wall.date, a.wall.time⟩ = .ok i := by
  obtain ⟨-, hsd, hst⟩ := LocalDateTime.shiftDate_eq_ok.mp hshift
  have hkm : k = m := by
    refine Int.le_antisymm (hs.le_months hshift hle) (Int.not_lt.mp fun hlt => ?_)
    obtain ⟨i, hi, hilt⟩ := hpast s hst (Int.le_refl s.epochNanos) hle
    refine absurd (landing_lt hi ?_) (Int.lt_asymm hilt)
    have hnext := shifted_add_28_le a.wall.date.dayNumber k
    have hmono := (shifted_strictMono a.wall.date.dayNumber).monotone (show k + 1 ≤ m by omega)
    have hb := le_of_not_passes (IsSplit.not_passes_months hs)
    have h0 := s.time.lt_day
    have h1 := b.wall.time.nonneg
    simp only [LocalDateTime.epochNanos, nanosPerDay] at *
    omega
  subst hkm
  obtain ⟨date, hdate, -, hgap, hreading⟩ := hs.exists_month_before hk
  rw [settle_of_all_past hs.days_nonneg ((hs.anchors_past_iff hk hshift).mpr hpast) hdate] at h
  obtain ⟨l, hl, hd, ht⟩ := hreading (b.wall.date.dayNumber - date.dayNumber) (by omega) (by omega)
  have hday : l.date.dayNumber = b.wall.date.dayNumber := by omega
  obtain rfl : l = ⟨b.wall.date, a.wall.time⟩ := LocalDateTime.ext_date_time (Date.ext_dayNumber hday) ht
  rw [← anchor_eq_landing (by omega) hl]
  exact exists_anchor_of_settle h

end

theorem splittable_of_since {r : Duration} (hz : a.zoneId = b.zoneId) (hr : a.resolver = b.resolver)
    (hab : a.nanos ≤ b.nanos) (h : b.since a = .ok r) : Splittable a b := by
  obtain ⟨m, d, hmd, hsettle⟩ := (since_eq_ok hz hr).mp h
  have hs : IsWallSplit a b m d := ((monthsDaysBetween_eq_ok (supported_dayNumber b.wall.date)).mp hmd).2
  have hm : 0 ≤ m := Int.not_lt.mp fun hm => settle_ne_ok_of_neg hab hm hsettle
  have hle : a.wall ≤ b.wall := by
    refine LocalDateTime.not_passes_iff_le.mp fun hp => IsSplit.not_passes hs (hp.mono ?_)
    exact le_shifted hm hs.days_nonneg
  refine ⟨hle, hs.days_land hm (exists_anchor_of_settle hsettle), ?_⟩
  intro k s hk hshift hle hpast
  exact hs.month_back_lands hm hsettle hk hshift hle hpast

theorem exists_since_of_splittable (hz : a.zoneId = b.zoneId) (hr : a.resolver = b.resolver)
    (hab : a.nanos ≤ b.nanos) (h : Splittable a b) : ∃ r, b.since a = .ok r := by
  obtain ⟨m, d, hmd, hm, hs⟩ := exists_monthsDaysBetween (supported_dayNumber a.wall.date)
    (supported_dayNumber b.wall.date) (LocalDateTime.not_passes_iff_le.mpr h.wall_le)
  have hs : IsWallSplit a b m d := hs
  obtain ⟨r, hsettle⟩ := hs.exists_settle hm hab h
  exact ⟨r, (since_eq_ok hz hr).mpr ⟨m, d, hmd, hsettle⟩⟩

/-- Before the last date of the range only clocks that were set back stand in the way. -/
theorem splittable_of_wall_le (h : a.wall ≤ b.wall) (hlast : b.wall.date.dayNumber < lastDay) :
    Splittable a b := by
  have hland (l : LocalDateTime) (hday : a.wall.date.dayNumber < l.date.dayNumber)
      (hle : l.date.dayNumber ≤ b.wall.date.dayNumber) (ht : l.time = a.wall.time) :
      ∃ i, b.landing l = .ok i := by
    have hsub := LocalDateTime.epochNanos_sub_of_time_eq ht
    have hfirst := a.wall.epochNanos_bounds.1
    have htime := l.time.lt_day
    refine exists_landing ?_ ?_
    · simp only [nanosPerDay] at *
      omega
    · simp only [LocalDateTime.epochNanos, Instant.lastNanos, nanosPerDay] at *
      omega
  refine ⟨h, ?_, ?_⟩
  · intro l ht hlt hle
    have hlt : a.wall.epochNanos < l.epochNanos := hlt
    have hsub := LocalDateTime.epochNanos_sub_of_time_eq ht
    refine hland l ?_ (LocalDateTime.date_le_of_le hle) ht
    simp only [nanosPerDay] at hsub
    omega
  · intro m s hm hs hle _
    have hday := (LocalDateTime.shiftDate_eq_ok.mp hs).2.1
    have hfar : a.wall.date.dayNumber + 28 ≤ shifted a.wall.date.dayNumber m 0 := add_28_le_shifted hm
    refine hland _ ?_ (Int.le_refl _) rfl
    have := LocalDateTime.date_le_of_le hle
    show a.wall.date.dayNumber < b.wall.date.dayNumber
    omega

/-- The distance to a later value of the same zone exists exactly if it can be split on the wall clock, and where
it exists it leads to the later value. Where it does not, the range is exceeded, or the clocks were set back in
between so that the split would have two signs. -/
theorem exists_diff_add_iff (hz : a.zoneId = b.zoneId) (hr : a.resolver = b.resolver) (hab : a.nanos ≤ b.nanos) :
    ((∃ r, b.diff a = .ok r ∧ a.add r .compatible .shiftForward = .ok b) ↔ Splittable a b) ∧
      (∀ r, b.diff a = .ok r → a.add r .compatible .shiftForward = .ok b) ∧
      ∀ e, b.diff a = .error e → e.kind = .rangeOverflow ∨ (e = .fault .mixedSigns ∧ b.wall < a.wall) := by
  have hadd (r : Duration) (hdiff : b.diff a = .ok r) : a.add r .compatible .shiftForward = .ok b := by
    rw [diff_of_le hab] at hdiff
    obtain ⟨m, d, -, hsettle⟩ := (since_eq_ok hz hr).mp hdiff
    exact add_of_settle hz hr hsettle
  refine ⟨⟨?_, ?_⟩, hadd, fun e he => diff_error hz hr hab he⟩
  · rintro ⟨r, hdiff, -⟩
    rw [diff_of_le hab] at hdiff
    exact splittable_of_since hz hr hab hdiff
  · intro h
    obtain ⟨r, hsince⟩ := exists_since_of_splittable hz hr hab h
    rw [← diff_of_le hab] at hsince
    exact ⟨r, hsince, hadd r hsince⟩

/-- Clocks two hours ahead are set back by an hour. -/
def setBack : Zone where
  initial := ⟨⟨7200, by decide, by decide⟩, "", .bool false⟩
  transitions := [⟨1698541200, ⟨⟨3600, by decide, by decide⟩, "", .bool false⟩⟩]

def setBackResolver : Resolver := .ofZones ⟨[(.text "P", setBack)], List.pairwise_singleton _ _⟩

/-- 02:45, a quarter of an hour before the clocks are set back. -/
def quarterBefore : ZonedDateTime where
  resolver := setBackResolver
  zoneId := "P"
  instant := ⟨1698540300000000000, by decide, by decide⟩
  period := setBack.initial
  wall := ⟨⟨2460247, by decide, by decide⟩, ⟨9900000000000, by decide, by decide⟩⟩
  period_eq := (Resolver.periodAt_eq_ok (z := setBack) rfl _).trans rfl
  wall_eq := rfl

/-- 02:15 on the same day, after the clocks were set back. -/
def quarterAfter : ZonedDateTime where
  resolver := setBackResolver
  zoneId := "P"
  instant := ⟨1698542100000000000, by decide, by decide⟩
  period := ⟨⟨3600, by decide, by decide⟩, "", .bool false⟩
  wall := ⟨⟨2460247, by decide, by decide⟩, ⟨8100000000000, by decide, by decide⟩⟩
  period_eq := (Resolver.periodAt_eq_ok (z := setBack) rfl _).trans rfl
  wall_eq := rfl

/-- 02:15 on the next day. -/
def dayAfter : ZonedDateTime where
  resolver := setBackResolver
  zoneId := "P"
  instant := ⟨1698628500000000000, by decide, by decide⟩
  period := ⟨⟨3600, by decide, by decide⟩, "", .bool false⟩
  wall := ⟨⟨2460248, by decide, by decide⟩, ⟨8100000000000, by decide, by decide⟩⟩
  period_eq := (Resolver.periodAt_eq_ok (z := setBack) rfl _).trans rfl
  wall_eq := rfl

theorem exists_diff_add_dayAfter :
    quarterBefore.zoneId = dayAfter.zoneId ∧ quarterBefore.resolver = dayAfter.resolver ∧
      quarterBefore.nanos ≤ dayAfter.nanos ∧
      ∃ r, dayAfter.diff quarterBefore = .ok r ∧ quarterBefore.add r .compatible .shiftForward = .ok dayAfter := by
  have hz : quarterBefore.zoneId = dayAfter.zoneId := rfl
  have hr : quarterBefore.resolver = dayAfter.resolver := rfl
  have hab : quarterBefore.nanos ≤ dayAfter.nanos := by decide
  have hs : Splittable quarterBefore dayAfter := splittable_of_wall_le (by decide) (by decide)
  exact ⟨hz, hr, hab, (exists_diff_add_iff hz hr hab).1.mpr hs⟩

/-- Within the hour that is shown twice there need not be a distance. -/
theorem quarterAfter_diff_fails :
    quarterBefore.zoneId = quarterAfter.zoneId ∧ quarterBefore.resolver = quarterAfter.resolver ∧
      quarterBefore.nanos ≤ quarterAfter.nanos ∧ ¬∃ r, quarterAfter.diff quarterBefore = .ok r := by
  have hz : quarterBefore.zoneId = quarterAfter.zoneId := rfl
  have hr : quarterBefore.resolver = quarterAfter.resolver := rfl
  have hab : quarterBefore.nanos ≤ quarterAfter.nanos := by decide
  have hback : ¬quarterBefore.wall ≤ quarterAfter.wall := by decide
  refine ⟨hz, hr, hab, ?_⟩
  rintro ⟨r, h⟩
  rw [diff_of_le hab] at h
  exact hback (splittable_of_since hz hr hab h).wall_le

end ZonedDateTime
end CivilTime
