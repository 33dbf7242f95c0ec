/- How the search for a split fails: at the end of the range, or because it was started backward. -/
import CivilTime.Proofs.Duration
import CivilTime.Proofs.ZonedDateTime.Settle

namespace CivilTime

namespace ZonedDateTime
open Calendar

variable {a b : ZonedDateTime}

theorem landing_eq_error {l : LocalDateTime} {e : Error} (h : b.landing l = .error e) :
    ∃ n, e = .fault (.instantOverflow n) ∧ ¬(Instant.firstNanos ≤ n ∧ n ≤ Instant.lastNanos) := by
  obtain ⟨o, ho⟩ := exists_landing_eq b l
  obtain ⟨f, hf, rfl⟩ := liftM_eq_error.mp (ho ▸ h)
  by_cases hn : Instant.firstNanos ≤ l.epochNanos - o.nanos ∧ l.epochNanos - o.nanos ≤ Instant.lastNanos
  · rw [Instant.ofNanos_eq_ok.mpr (show (⟨_, hn.1, hn.2⟩ : Instant).nanos = _ from rfl)] at hf
    cases hf
  · rw [Instant.ofNanos, Instant.ofNanos?, dif_neg hn] at hf
    cases hf
    exact ⟨_, rfl, hn⟩

section
variable {origin reached : Instant} {start : LocalDateTime} {m d : Int}

theorem anchor_error_kind {e : Error} (hm : m.natAbs ≤ 10 ^ 30)
    (h : anchor b.resolver b.zoneId origin start m d = .error e) : e.kind = .rangeOverflow := by
  unfold anchor at h
  by_cases hzero : m = 0 ∧ d = 0
  · rw [if_pos hzero] at h
    cases h
  · rw [if_neg hzero] at h
    rcases bind_eq_error.mp h with h | ⟨l, -, h⟩
    · obtain ⟨f, hf, rfl⟩ := liftM_eq_error.mp h
      exact LocalDateTime.shiftDate_error_kind hm hf
    · exact landing_error_kind h

/-- A split that arrives somewhere is made of days between supported ones. -/
theorem natAbs_le_of_anchor (h : anchor b.resolver b.zoneId origin start m d = .ok reached) :
    m.natAbs ≤ 119988 ∧ d.natAbs ≤ 3652058 := by
  by_cases hzero : m = 0 ∧ d = 0
  · rw [hzero.1, hzero.2]
    decide
  · obtain ⟨l, hl, -⟩ := (anchor_eq_ok hzero).mp h
    obtain ⟨hm, hd, -⟩ := LocalDateTime.shiftDate_eq_ok.mp hl
    have hday := supported_dayNumber l.date
    refine ⟨natAbs_months_le (supported_dayNumber _) hm, ?_⟩
    rw [hd, shifted_add] at hday
    simp only [Supported, firstDay, lastDay] at hm hday
    omega

end

theorem natAbs_sub_le (i j : Instant) : (i.nanos - j.nanos).natAbs ≤ 10 ^ 40 := by
  have hi := i.firstNanos_le
  have hi' := i.le_lastNanos
  have hj := j.firstNanos_le
  have hj' := j.le_lastNanos
  simp only [Instant.firstNanos, Instant.lastNanos, firstDay, lastDay, epochDay, nanosPerDay] at *
  omega

/-- A split that goes forward and whose months alone stay below the later value. -/
def Forward (a b : ZonedDateTime) (m d : Int) : Prop :=
  0 ≤ m ∧ 0 ≤ d ∧ shifted a.wall.date.dayNumber m 0 ≤ b.wall.date.dayNumber

/-- A search that is started forward stays so, and the parts it ends with share one sign. -/
theorem settle_error {m d : Int} {e : Error} (hab : a.nanos ≤ b.nanos) (hmonths : m.natAbs ≤ 10 ^ 30)
    (h : settle b a.instant a.wall m d = .error e) :
    e.kind = .rangeOverflow ∨ (e = .fault .mixedSigns ∧ ¬Forward a b m d) := by
  induction m, d using settle.induct b a.instant a.wall with
  | case1 m d e' he =>
    rw [settle_of_error he] at h
    cases h
    exact Or.inl (anchor_error_kind hmonths he)
  | case2 m d reached hreached hle =>
    rw [settle_of_le hreached (diff_nonneg_iff.mp hle)] at h
    obtain ⟨f, hf, rfl⟩ := liftM_eq_error.mp h
    rcases Duration.ofParts_error hf with ⟨hk, -⟩ | ⟨rfl, hs⟩
    · obtain ⟨hm, hd⟩ := natAbs_le_of_anchor hreached
      have hnanos := natAbs_sub_le b.instant reached
      exact Or.inl ((naming_of_writable (Duration.ofParts_writable (by omega) (by omega) hnanos hf)).trans hk)
    · exact Or.inr ⟨rfl, fun hf => hs (Or.inl ⟨hf.1, hf.2.1, hle⟩)⟩
  | case3 m d reached hreached hlt hd ih =>
    have hlt := not_diff_nonneg_iff.mp hlt
    rw [settle_of_past_day hreached hlt hd] at h
    rcases ih hmonths h with hk | ⟨he, hf⟩
    · exact Or.inl hk
    · refine Or.inr ⟨he, fun hf' => hf ⟨hf'.1, ?_, hf'.2.2⟩⟩
      omega
  | case4 m d reached hreached hlt hd f hf =>
    rw [settle_of_no_month hreached (not_diff_nonneg_iff.mp hlt) hd hf] at h
    cases h
    have hm := (natAbs_le_of_anchor hreached).1
    exact Or.inl (shift_error_kind (supported_dayNumber _) (by omega) hf)
  | case5 m d reached hreached hlt hd date hdate ih =>
    have hlt := not_diff_nonneg_iff.mp hlt
    rw [settle_of_past_month hreached hlt hd hdate] at h
    obtain ⟨hmonth, hday⟩ := (shift_eq_ok (supported_dayNumber _)).mp hdate
    have hm := natAbs_months_le (supported_dayNumber _) hmonth
    rcases ih (by omega) h with hk | ⟨he, hf⟩
    · exact Or.inl hk
    refine Or.inr ⟨he, ?_⟩
    rintro ⟨hm, hd', hforward⟩
    have hpos := months_pos_of_past hreached hab hlt hm (Int.le_antisymm (Int.not_lt.mp hd) hd')
    have hback := shifted_sub_one_le a.wall.date.dayNumber m
    exact hf ⟨by omega, by omega, by omega⟩

/-- Only clocks that were set back in between make the signs differ. -/
theorem diff_error {e : Error} (hz : a.zoneId = b.zoneId) (hr : a.resolver = b.resolver)
    (hab : a.nanos ≤ b.nanos) (h : b.diff a = .error e) :
    e.kind = .rangeOverflow ∨ (e = .fault .mixedSigns ∧ b.wall < a.wall) := by
  have hb := supported_dayNumber b.wall.date
  rw [diff_of_le hab, since_eq hz hr] at h
  rcases bind_eq_error.mp h with h | ⟨⟨m, d⟩, hmd, h⟩
  · obtain ⟨f, hf, rfl⟩ := liftM_eq_error.mp h
    exact Or.inl (monthsDaysBetween_error_kind (supported_dayNumber _) hb hf)
  · obtain ⟨hmonth, hs⟩ := (monthsDaysBetween_eq_ok hb).mp (liftM_eq_ok.mp hmd)
    have hm := natAbs_months_le (supported_dayNumber _) hmonth
    rcases settle_error hab (by omega) h with hk | ⟨he, hf⟩
    · exact Or.inl hk
    refine Or.inr ⟨he, Int.not_le.mp fun hle => hf ?_⟩
    have hm : 0 ≤ m := by
      refine hs.le_months ?_
      rw [shifted_zero, Int.add_zero]
      exact LocalDateTime.not_passes_iff_le.mpr hle
    exact ⟨hm, hs.days_nonneg, le_of_not_passes hs.not_passes_months⟩

end ZonedDateTime
end CivilTime
