/- The passes of the search for a split: there are finitely many, each keeps the split forward, and where they end
all greater splits that stay below the later reading arrive past the later value. -/
import CivilTime.Proofs.ZonedDateTime.Difference
import CivilTime.Proofs.ZonedDateTime.Text
import Mathlib.Data.List.Permutation
import Mathlib.Logic.Relation

namespace CivilTime.ZonedDateTime
open Calendar Relation

/-- A pass that does not end the search: the split arrives past the later value and loses a day or, if it has none,
a month. The days are then counted up to the later date again. -/
inductive Pass (b : ZonedDateTime) (origin : Instant) (start : LocalDateTime) : Int × Int → Int × Int → Prop
  | day {m d : Int} {reached : Instant} (h : anchor b.resolver b.zoneId origin start m d = .ok reached)
      (hlt : b.nanos < reached.nanos) (hd : 0 < d) : Pass b origin start (m, d) (m, d - 1)
  | month {m d : Int} {reached : Instant} {date : Date}
      (h : anchor b.resolver b.zoneId origin start m d = .ok reached) (hlt : b.nanos < reached.nanos)
      (hd : ¬0 < d) (hdate : start.date.shift (m - 1) 0 = .ok date) :
      Pass b origin start (m, d) (m - 1, b.wall.date.dayNumber - date.dayNumber)

/-- Every greater split whose reading does not pass that of the later value arrives past the later value. -/
def GreaterPast (b : ZonedDateTime) (start : LocalDateTime) (p : Int × Int) : Prop :=
  ∀ m d l, 0 ≤ m → 0 ≤ d → Prod.Lex (· < ·) (· < ·) p (m, d) → start.shiftDate m d = .ok l → l ≤ b.wall →
    ∃ i, b.landing l = .ok i ∧ b.nanos < i.nanos

/-- How the search ends at a split: with a duration that no greater split could have, or with a reading of which
the instant is out of range. -/
inductive Ends (b : ZonedDateTime) (origin : Instant) (start : LocalDateTime) :
    Int × Int → Except Error Duration → Prop
  | found {r : Duration} {reached : Instant}
      (h : anchor b.resolver b.zoneId origin start r.months r.days = .ok reached)
      (hnanos : reached.nanos + r.nanos = b.nanos) (nonneg : 0 ≤ r.months ∧ 0 ≤ r.days ∧ 0 ≤ r.nanos)
      (greater : GreaterPast b start (r.months, r.days)) : Ends b origin start (r.months, r.days) (.ok r)
  | outOfRange {m d n : Int} {l : LocalDateTime} (hl : start.shiftDate m d = .ok l)
      (h : b.landing l = .error (.fault (.instantOverflow n))) (hn : ¬Instant.InRange n) :
      Ends b origin start (m, d) (.error (.fault (.instantOverflow n)))

section
variable {b : ZonedDateTime} {origin : Instant} {start : LocalDateTime} {p q : Int × Int}

/-- How many months the calendar has left to take off, and after them the days. -/
def rank (start : LocalDateTime) (p : Int × Int) : Nat × Nat :=
  ((p.1 + max 0 start.date.ymd.monthIndex).toNat, p.2.toNat)

theorem Pass.rank_lt (h : Pass b origin start p q) :
    Prod.Lex (· < ·) (· < ·) (rank start q) (rank start p) := by
  cases h with
  | day h hlt hd =>
    refine Prod.Lex.right _ ?_
    omega
  | month h hlt hd hdate =>
    refine Prod.Lex.left _ _ ?_
    have hyear := months_of_shift_eq_ok hdate
    simp only [Date.ymd]
    omega

/-- A month that is taken off outweighs the days that come back with it. -/
theorem wellFounded_pass : WellFounded fun q p => Pass b origin start p q :=
  Subrelation.wf Pass.rank_lt (InvImage.wf (rank start) (WellFounded.prod_lex Nat.lt_wfRel.wf Nat.lt_wfRel.wf))

theorem Pass.settle_eq (h : Pass b origin start p q) :
    settle b origin start p.1 p.2 = settle b origin start q.1 q.2 := by
  cases h with
  | day h hlt hd => exact settle_of_past_day h hlt hd
  | month h hlt hd hdate => exact settle_of_past_month h hlt hd hdate

theorem settle_eq_of_passes (h : ReflTransGen (Pass b origin start) p q) :
    settle b origin start p.1 p.2 = settle b origin start q.1 q.2 := by
  induction h with
  | refl => rfl
  | tail _ hpass ih => rw [ih, hpass.settle_eq]

/-- What the passes keep: the split goes forward, to a date that is not after the later one, and the greater splits
have been looked at. -/
structure OnTrack (b : ZonedDateTime) (start : LocalDateTime) (p : Int × Int) : Prop where
  months_nonneg : 0 ≤ p.1
  days_nonneg : 0 ≤ p.2
  date_le : shifted start.date.dayNumber p.1 p.2 ≤ b.wall.date.dayNumber
  greater_past : GreaterPast b start p

theorem onTrack_of_isSplit {m d : Int} (hm : 0 ≤ m)
    (h : IsSplit start.date.dayNumber start.time.nanos b.wall.date.dayNumber b.wall.time.nanos m d) :
    OnTrack b start (m, d) := by
  refine ⟨hm, h.days_nonneg, le_of_not_passes h.not_passes, ?_⟩
  intro m' d' l _ hd' hgreater hl hle
  obtain ⟨-, hday, htime⟩ := LocalDateTime.shiftDate_eq_ok.mp hl
  refine absurd (h.passes_of_lex hd' hgreater) ?_
  rw [← hday, ← htime]
  exact LocalDateTime.not_passes_iff_le.mpr hle

/-- Of the splits greater than the next one only that of the pass itself is new. -/
theorem GreaterPast.next (h : GreaterPast b start p)
    (hself : ∀ l, start.shiftDate p.1 p.2 = .ok l → ∃ i, b.landing l = .ok i ∧ b.nanos < i.nanos)
    (hnext : ∀ m d l, 0 ≤ d → Prod.Lex (· < ·) (· < ·) q (m, d) → start.shiftDate m d = .ok l →
      l ≤ b.wall → (m, d) = p ∨ Prod.Lex (· < ·) (· < ·) p (m, d)) : GreaterPast b start q := by
  intro m d l hm hd hgreater hl hle
  rcases hnext m d l hd hgreater hl hle with rfl | hp
  · exact hself l hl
  · exact h m d l hm hd hp hl hle

theorem exists_landing_past {m d : Int} {reached : Instant}
    (h : anchor b.resolver b.zoneId origin start m d = .ok reached) (hlt : b.nanos < reached.nanos)
    (hne : ¬(m = 0 ∧ d = 0)) (l : LocalDateTime) (hl : start.shiftDate m d = .ok l) :
    ∃ i, b.landing l = .ok i ∧ b.nanos < i.nanos :=
  ⟨reached, (anchor_eq_landing hne hl).symm.trans h, hlt⟩

theorem OnTrack.pass (horigin : origin.nanos ≤ b.nanos) (h : OnTrack b start p) (hpass : Pass b origin start p q) :
    OnTrack b start q := by
  obtain ⟨hm, hd, hdate_le, hgreater⟩ := h
  cases hpass with
  | @day m d reached hreached hlt hpos =>
    simp only at hm hd hdate_le
    refine ⟨hm, ?_, ?_, hgreater.next (exists_landing_past hreached hlt (by omega)) ?_⟩
    · show 0 ≤ d - 1
      omega
    · show shifted start.date.dayNumber m (d - 1) ≤ b.wall.date.dayNumber
      rw [shifted_add] at hdate_le ⊢
      omega
    · intro m' d' l _ hlex _ _
      simp only [Prod.lex_def, Prod.mk.injEq] at hlex ⊢
      omega
  | @month m d reached date hreached hlt hzero hdate =>
    simp only at hm hd hdate_le
    obtain rfl : d = 0 := by omega
    have hpos := months_pos_of_past hreached horigin hlt hm rfl
    have hday := ((shift_eq_ok (supported_dayNumber _)).mp hdate).2
    have hback := shifted_sub_one_le start.date.dayNumber m
    refine ⟨?_, ?_, ?_, hgreater.next (exists_landing_past hreached hlt (by omega)) ?_⟩
    · show 0 ≤ m - 1
      omega
    · show 0 ≤ b.wall.date.dayNumber - date.dayNumber
      omega
    · show shifted start.date.dayNumber (m - 1) (b.wall.date.dayNumber - date.dayNumber) ≤ _
      rw [shifted_add, ← hday]
      omega
    · -- more days than the new ones lead past the later date, so a greater split has more months
      intro m' d' l hd' hlex hl hle
      have hl := (LocalDateTime.shiftDate_eq_ok.mp hl).2.1
      have hle := LocalDateTime.date_le_of_le hle
      rw [shifted_add] at hl
      simp only [Prod.lex_def, Prod.mk.injEq] at hlex ⊢
      rcases hlex with hlt' | ⟨rfl, hlt'⟩
      · omega
      · omega

theorem OnTrack.passes (horigin : origin.nanos ≤ b.nanos) (h : OnTrack b start p)
    (hpasses : ReflTransGen (Pass b origin start) p q) : OnTrack b start q := by
  induction hpasses with
  | refl => exact h
  | tail _ hpass ih => exact ih.pass horigin hpass

variable {m d : Int}

theorem OnTrack.ends_of_le {reached : Instant} (h : OnTrack b start (m, d))
    (hreached : anchor b.resolver b.zoneId origin start m d = .ok reached) (hle : reached.nanos ≤ b.nanos) :
    Ends b origin start (m, d) (settle b origin start m d) := by
  have hbounds := bounds_of_shifted_le (supported_dayNumber _) (supported_dayNumber _) h.months_nonneg
    h.days_nonneg h.date_le
  obtain ⟨r, hr⟩ := exists_settle_of_le hreached hle hbounds.1 hbounds.2
  have hparts := hr
  rw [settle_of_le hreached hle] at hparts
  obtain ⟨hrm, hrd, hrn⟩ := Duration.ofParts_eq_ok.mp (mapError_eq_ok.mp hparts)
  subst hrm hrd
  rw [hr]
  exact .found hreached (by omega) ⟨h.months_nonneg, h.days_nonneg, by omega⟩ h.greater_past

theorem OnTrack.ends_of_error {e : Error} (h : OnTrack b start (m, d))
    (he : anchor b.resolver b.zoneId origin start m d = .error e) :
    Ends b origin start (m, d) (settle b origin start m d) := by
  have hne : ¬(m = 0 ∧ d = 0) := by
    rintro ⟨rfl, rfl⟩
    rw [anchor_zero] at he
    cases he
  have hsup := supported_shifted (supported_dayNumber _) (supported_dayNumber _) h.months_nonneg h.days_nonneg
    h.date_le
  obtain ⟨l, hl, -⟩ := LocalDateTime.exists_shiftDate hsup.1 hsup.2
  have hlanding := (anchor_eq_landing hne hl).symm.trans he
  obtain ⟨n, rfl, hn⟩ := landing_eq_error hlanding
  rw [settle_of_error he]
  exact .outOfRange hl hlanding hn

theorem OnTrack.exists_ends (horigin : origin.nanos ≤ b.nanos) (h : OnTrack b start (m, d)) :
    ∃ q, ReflTransGen (Pass b origin start) (m, d) q ∧ Ends b origin start q (settle b origin start m d) := by
  induction m, d using settle.induct b origin start with
  | case1 m d e he => exact ⟨_, .refl, h.ends_of_error he⟩
  | case2 m d reached hreached hle => exact ⟨_, .refl, h.ends_of_le hreached (diff_nonneg_iff.mp hle)⟩
  | case3 m d reached hreached hlt hd ih =>
    have hpass : Pass b origin start (m, d) (m, d - 1) :=
      .day hreached (not_diff_nonneg_iff.mp hlt) hd
    obtain ⟨q, hq, hends⟩ := ih (h.pass horigin hpass)
    exact ⟨q, .head hpass hq, hpass.settle_eq ▸ hends⟩
  | case4 m d reached hreached hlt hd f hf =>
    have hlt := not_diff_nonneg_iff.mp hlt
    obtain rfl : d = 0 := Int.le_antisymm (Int.not_lt.mp hd) h.days_nonneg
    have hpos := months_pos_of_past hreached horigin hlt h.months_nonneg rfl
    obtain ⟨date, hdate, -⟩ := exists_shift_sub_one (supported_dayNumber _) (supported_dayNumber _) hpos h.date_le
    rw [Date.shift, hdate] at hf
    cases hf
  | case5 m d reached hreached hlt hd date hdate ih =>
    have hpass : Pass b origin start (m, d) (m - 1, b.wall.date.dayNumber - date.dayNumber) :=
      .month hreached (not_diff_nonneg_iff.mp hlt) hd hdate
    obtain ⟨q, hq, hends⟩ := ih (h.pass horigin hpass)
    exact ⟨q, .head hpass hq, hpass.settle_eq ▸ hends⟩

end

variable {a b : ZonedDateTime}

/-- The search reads the earlier value in the zone of the later one and does not look at its own zone. -/
theorem since_eq_of_ofInstant {start : ZonedDateTime} (h : ofInstant a.instant b.zoneId b.resolver = .ok start) :
    b.since a = b.since start := by
  rw [since, since, (ofInstant_fields h).1, h]

/-- If the reading of an earlier value in the zone of a later one is out of range, so is the distance. If it does not
pass the later reading, the search for a split goes forward all the way and ends after finitely many passes: at a split
such that all greater ones arrive past the later value, or at one of which the instant is out of range. -/
theorem search_ends_at_greatest_split (hab : a.nanos ≤ b.nanos) :
    (∀ e, ofInstant a.instant b.zoneId b.resolver = .error e →
      e = .fault .readingOverflow ∧ b.diff a = .error e) ∧
    ∀ start, ofInstant a.instant b.zoneId b.resolver = .ok start → start.wall ≤ b.wall →
      (WellFounded fun q p => Pass b a.instant start.wall p q) ∧
      ∃ first last, monthsDaysBetween start.wall.date.dayNumber start.wall.time.nanos
          b.wall.date.dayNumber b.wall.time.nanos = .ok first ∧
        ReflTransGen (Pass b a.instant start.wall) first last ∧
        (∀ p, ReflTransGen (Pass b a.instant start.wall) first p →
          0 ≤ p.1 ∧ 0 ≤ p.2 ∧ settle b a.instant start.wall p.1 p.2 = b.diff a) ∧
        Ends b a.instant start.wall last (b.diff a) := by
  rw [diff_of_le hab]
  constructor
  · intro e he
    obtain ⟨z, hz⟩ := Resolver.exists_find?_of_periodAt b.period_eq
    rcases ofInstant_eq_error he with ⟨-, hunknown⟩ | rfl
    · rw [hz] at hunknown
      cases hunknown
    · refine ⟨rfl, ?_⟩
      rw [since, he]
      rfl
  · intro start hstart hwall
    obtain ⟨hi, hz, hr⟩ := ofInstant_fields hstart
    obtain ⟨m, d, hmd, hm, hs⟩ := exists_monthsDaysBetween (supported_dayNumber start.wall.date)
      (supported_dayNumber b.wall.date) (LocalDateTime.not_passes_iff_le.mpr hwall)
    have hsince : b.since a = settle b a.instant start.wall m d := by
      rw [since_eq_of_ofInstant hstart, since_eq hz hr, hmd, hi]
      rfl
    have htrack : OnTrack b start.wall (m, d) := onTrack_of_isSplit hm hs
    obtain ⟨last, hlast, hends⟩ := htrack.exists_ends hab
    refine ⟨wellFounded_pass, (m, d), last, hmd, hlast, ?_, hsince ▸ hends⟩
    intro p hp
    have hkept := htrack.passes hab hp
    exact ⟨hkept.months_nonneg, hkept.days_nonneg, (settle_eq_of_passes hp).symm.trans hsince.symm⟩

/-- The clocks go forward by a whole day, from the end of one date to the beginning of the next but one. -/
def dateLine : Zone where
  initial := ⟨⟨-36000, by decide, by decide⟩, "", .bool false⟩
  transitions := [⟨1325239200, ⟨⟨50400, by decide, by decide⟩, "", .bool false⟩⟩]

def dateLineResolver : Resolver :=
  .ofZones ⟨[(.text "Apia", dateLine), (.text "UTC", ⟨⟨Offset.utc, "UTC", .bool false⟩, []⟩)], by decide⟩

/-- 12:00 on 30 November. -/
def monthBefore : ZonedDateTime where
  resolver := dateLineResolver
  zoneId := "Apia"
  instant := ⟨1322690400000000000, by decide, by decide⟩
  period := dateLine.initial
  wall := ⟨⟨2455896, by decide, by decide⟩, TimeOfDay.noon⟩
  period_eq := (Resolver.periodAt_eq_ok (z := dateLine) rfl _).trans rfl
  wall_eq := rfl

/-- The same instant at offset zero, ten hours later by the clock. -/
def monthBeforeUtc : ZonedDateTime where
  resolver := dateLineResolver
  zoneId := "UTC"
  instant := monthBefore.instant
  period := ⟨Offset.utc, "UTC", .bool false⟩
  wall := ⟨⟨2455896, by decide, by decide⟩, ⟨79200000000000, by decide, by decide⟩⟩
  period_eq := (Resolver.periodAt_eq_ok (z := ⟨⟨Offset.utc, "UTC", .bool false⟩, []⟩) rfl _).trans rfl
  wall_eq := rfl

/-- 00:30 on 31 December, when 30 December has been left out. -/
def afterLeftOutDay : ZonedDateTime where
  resolver := dateLineResolver
  zoneId := "Apia"
  instant := ⟨1325241000000000000, by decide, by decide⟩
  period := ⟨⟨50400, by decide, by decide⟩, "", .bool false⟩
  wall := ⟨⟨2455927, by decide, by decide⟩, ⟨1800000000000, by decide, by decide⟩⟩
  period_eq := (Resolver.periodAt_eq_ok (z := dateLine) rfl _).trans rfl
  wall_eq := rfl

/-- A month leads into the day that was left out, past the later value, so that 31 days are tried next. -/
theorem search_takes_month_back :
    monthBeforeUtc.nanos ≤ afterLeftOutDay.nanos ∧
      ofInstant monthBeforeUtc.instant afterLeftOutDay.zoneId afterLeftOutDay.resolver = .ok monthBefore ∧
      monthBefore.wall ≤ afterLeftOutDay.wall ∧
      Pass afterLeftOutDay monthBeforeUtc.instant monthBefore.wall (1, 0) (0, 31) ∧
      ∃ last, ReflTransGen (Pass afterLeftOutDay monthBeforeUtc.instant monthBefore.wall) (1, 0) last ∧
        Ends afterLeftOutDay monthBeforeUtc.instant monthBefore.wall last
          (afterLeftOutDay.diff monthBeforeUtc) := by
  have hab : monthBeforeUtc.nanos ≤ afterLeftOutDay.nanos := by decide
  have hstart : ofInstant monthBeforeUtc.instant afterLeftOutDay.zoneId afterLeftOutDay.resolver =
      .ok monthBefore := ofInstant_self monthBefore
  have hwall : monthBefore.wall ≤ afterLeftOutDay.wall := by decide
  have hsplit : monthsDaysBetween monthBefore.wall.date.dayNumber monthBefore.wall.time.nanos
    afterLeftOutDay.wall.date.dayNumber afterLeftOutDay.wall.time.nanos = .ok (1, 0) := by cbv
  have hmonth : anchor afterLeftOutDay.resolver afterLeftOutDay.zoneId monthBeforeUtc.instant monthBefore.wall 1 0 =
      .ok ⟨1325282400000000000, by decide, by decide⟩ := by cbv
  have hdate : monthBefore.wall.date.shift (1 - 1) 0 = .ok monthBefore.wall.date := by cbv
  obtain ⟨-, first, last, hfirst, hlast, -, hends⟩ := (search_ends_at_greatest_split hab).2 monthBefore hstart hwall
  obtain rfl : first = (1, 0) := Except.ok.inj (hfirst.symm.trans hsplit)
  exact ⟨hab, hstart, hwall, .month hmonth (by decide) (by decide) hdate, last, hlast, hends⟩

end CivilTime.ZonedDateTime
