/- The search for a split that does not arrive past the later value, step by step, and that whatever it finds
leads back. -/
import CivilTime.Proofs.Difference
import CivilTime.Proofs.ZonedDateTime.Landing
import CivilTime.Proofs.ZonedDateTime.Move

namespace CivilTime.ZonedDateTime
open Calendar

section
variable {b : ZonedDateTime} {origin reached : Instant} {start : LocalDateTime} {m d : Int}

theorem anchor_zero (b : ZonedDateTime) (origin : Instant) (start : LocalDateTime) :
    anchor b.resolver b.zoneId origin start 0 0 = .ok origin := by
  rw [anchor, if_pos ⟨rfl, rfl⟩]

theorem anchor_eq_landing {l : LocalDateTime} (hne : ¬(m = 0 ∧ d = 0)) (hl : start.shiftDate m d = .ok l) :
    anchor b.resolver b.zoneId origin start m d = b.landing l := by
  rw [anchor, if_neg hne, hl]
  rfl

theorem anchor_eq_ok (hne : ¬(m = 0 ∧ d = 0)) : anchor b.resolver b.zoneId origin start m d = .ok reached ↔
    ∃ l, start.shiftDate m d = .ok l ∧ b.landing l = .ok reached := by
  rw [anchor, if_neg hne, bind_eq_ok]
  simp only [liftM_eq_ok, landing]

theorem diff_nonneg_iff : 0 ≤ b.instant.diff reached ↔ reached.nanos ≤ b.nanos := Int.sub_nonneg

theorem not_diff_nonneg_iff : ¬0 ≤ b.instant.diff reached ↔ b.nanos < reached.nanos := by
  rw [diff_nonneg_iff, Int.not_le]

theorem settle_of_error {e : Error} (h : anchor b.resolver b.zoneId origin start m d = .error e) :
    settle b origin start m d = .error e := by
  rw [settle, h]

variable (h : anchor b.resolver b.zoneId origin start m d = .ok reached)
include h

/-- Without months and days the search starts from the earlier value, which is not past the later one. -/
theorem months_pos_of_past (horigin : origin.nanos ≤ b.nanos) (hlt : b.nanos < reached.nanos) (hm : 0 ≤ m)
    (hd : d = 0) : 0 < m := by
  refine Int.lt_iff_le_and_ne.mpr ⟨hm, ?_⟩
  rintro rfl
  subst hd
  rw [anchor_zero] at h
  cases h
  exact Int.not_le.mpr hlt horigin

theorem settle_of_le (hle : reached.nanos ≤ b.nanos) : settle b origin start m d =
    (Duration.ofParts m d (b.nanos - reached.nanos)).mapError .fault := by
  rw [settle, h]
  exact if_pos (diff_nonneg_iff.mpr hle)

theorem settle_of_past_day (hlt : b.nanos < reached.nanos) (hd : 0 < d) :
    settle b origin start m d = settle b origin start m (d - 1) := by
  have hdiff : ¬0 ≤ b.instant.diff reached := not_diff_nonneg_iff.mpr hlt
  rw [settle, h]
  dsimp only
  rw [if_neg hdiff, if_pos hd]

theorem settle_of_past_month {date : Date} (hlt : b.nanos < reached.nanos) (hd : ¬0 < d)
    (hdate : start.date.shift (m - 1) 0 = .ok date) : settle b origin start m d =
      settle b origin start (m - 1) (b.wall.date.dayNumber - date.dayNumber) := by
  have hdiff : ¬0 ≤ b.instant.diff reached := not_diff_nonneg_iff.mpr hlt
  rw [settle, h]
  dsimp only
  rw [if_neg hdiff, if_neg hd]
  split
  · rename_i f hf
    rw [hdate] at hf
    cases hf
  · rename_i date' hdate'
    rw [hdate] at hdate'
    cases hdate'
    rfl

theorem settle_of_no_month {f : Fault} (hlt : b.nanos < reached.nanos) (hd : ¬0 < d)
    (hf : start.date.shift (m - 1) 0 = .error f) : settle b origin start m d = .error (.fault f) := by
  have hdiff : ¬0 ≤ b.instant.diff reached := not_diff_nonneg_iff.mpr hlt
  rw [settle, h]
  dsimp only
  rw [if_neg hdiff, if_neg hd]
  split
  · rename_i f' hf'
    rw [hf] at hf'
    cases hf'
    rfl
  · rename_i date hdate
    rw [hf] at hdate
    cases hdate

end

/-- What the search finds is a split at which it has looked, with what is left of the distance. -/
theorem settle_eq_ok {b : ZonedDateTime} {origin : Instant} {start : LocalDateTime} {m d : Int} {r : Duration}
    (h : settle b origin start m d = .ok r) : r.months ≤ m ∧ ∃ reached,
      anchor b.resolver b.zoneId origin start r.months r.days = .ok reached ∧
      reached.nanos ≤ b.nanos ∧ reached.nanos + r.nanos = b.nanos := by
  induction m, d using settle.induct b origin start with
  | case1 m d e he =>
    rw [settle_of_error he] at h
    cases h
  | case2 m d reached hreached hle =>
    have hle := diff_nonneg_iff.mp hle
    rw [settle_of_le hreached hle] at h
    have hparts := Duration.ofParts_eq_ok.mp (mapError_eq_ok.mp h)
    obtain ⟨hm, hd, hn⟩ := hparts
    rw [hm, hd, hn]
    exact ⟨Int.le_refl m, reached, hreached, hle, by omega⟩
  | case3 m d reached hreached hlt hd ih =>
    have hlt := not_diff_nonneg_iff.mp hlt
    rw [settle_of_past_day hreached hlt hd] at h
    exact ih h
  | case4 m d reached hreached hlt hd f hf =>
    rw [settle_of_no_month hreached (not_diff_nonneg_iff.mp hlt) hd hf] at h
    cases h
  | case5 m d reached hreached hlt hd date hdate ih =>
    have hlt := not_diff_nonneg_iff.mp hlt
    rw [settle_of_past_month hreached hlt hd hdate] at h
    obtain ⟨hm, hrest⟩ := ih h
    exact ⟨by omega, hrest⟩

variable {a b : ZonedDateTime}

theorem diff_of_le (hab : a.nanos ≤ b.nanos) : b.diff a = b.since a := by
  rw [diff, if_neg (Int.not_lt.mpr hab)]

section
variable (hz : a.zoneId = b.zoneId) (hr : a.resolver = b.resolver)
include hz hr

theorem since_eq : b.since a = liftM (monthsDaysBetween a.wall.date.dayNumber a.wall.time.nanos
    b.wall.date.dayNumber b.wall.time.nanos) >>= fun p => settle b a.instant a.wall p.1 p.2 := by
  have hself : ofInstant a.instant b.zoneId b.resolver = .ok a := by
    rw [← hz, ← hr]
    exact ofInstant_self a
  rw [since, hself]
  rfl

theorem since_eq_ok {r : Duration} : b.since a = .ok r ↔ ∃ m d,
    monthsDaysBetween a.wall.date.dayNumber a.wall.time.nanos b.wall.date.dayNumber b.wall.time.nanos =
      .ok (m, d) ∧ settle b a.instant a.wall m d = .ok r := by
  rw [since_eq hz hr, bind_eq_ok]
  simp only [liftM_eq_ok, Prod.exists]

theorem add_of_settle {m d : Int} {r : Duration} (h : settle b a.instant a.wall m d = .ok r) :
    a.add r .compatible .shiftForward = .ok b := by
  obtain ⟨-, reached, hanchor, -, hn⟩ := settle_eq_ok h
  have hinstant : reached.addNanos r.nanos = .ok b.instant := Instant.addNanos_eq_ok.mpr hn.symm
  have hself : a.withInstant b.instant = .ok b := by
    rw [withInstant, hz, hr]
    exact ofInstant_self b
  by_cases hzero : r.months = 0 ∧ r.days = 0
  · rw [anchor, if_pos hzero, Except.ok.injEq] at hanchor
    rw [← hanchor] at hinstant
    exact (addWith_exact fun hdate => Duration.hasDatePart_iff.mp hdate hzero).mpr ⟨b.instant, hinstant, hself⟩
  · obtain ⟨l, hl, hlanding⟩ := (anchor_eq_ok hzero).mp hanchor
    rw [add, hz, hr]
    exact (addWith_date (Duration.hasDatePart_iff.mpr hzero)).mpr ⟨l, reached, b.instant, hl, hlanding, hinstant, hself⟩

end

end CivilTime.ZonedDateTime
