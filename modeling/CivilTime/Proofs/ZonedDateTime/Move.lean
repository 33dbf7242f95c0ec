/- Moves of a value in a zone, taken apart into their steps on the wall clock and on the time line. -/
import CivilTime.Proofs.Outcome
import CivilTime.ZonedDateTime.Operations

namespace CivilTime

theorem Duration.hasDatePart_iff {d : Duration} : d.hasDatePart = true ↔ ¬(d.months = 0 ∧ d.days = 0) := by
  simp only [hasDatePart, Bool.or_eq_true, bne_iff_ne]
  omega

theorem Instant.addNanos_eq_ok {i j : Instant} {n : Int} : i.addNanos n = .ok j ↔ j.nanos = i.nanos + n :=
  Instant.ofNanos_eq_ok

theorem Instant.addNanos_neg {i j : Instant} {n : Int} (h : i.addNanos n = .ok j) : j.addNanos (-n) = .ok i := by
  rw [addNanos_eq_ok] at h ⊢
  omega

namespace ZonedDateTime

variable {x y : ZonedDateTime} {d : Duration} {locate : LocalDateTime → Except Error Instant}

theorem withInstant_self (x : ZonedDateTime) : x.withInstant x.instant = .ok x := ofInstant_self x

theorem withInstant_fields {i : Instant} (h : x.withInstant i = .ok y) :
    y.instant = i ∧ y.withInstant = x.withInstant := by
  obtain ⟨hi, hid, hr⟩ := ofInstant_fields h
  refine ⟨hi, funext fun j => ?_⟩
  rw [withInstant, hid, hr, withInstant]

/-- An exact duration leaves the reading out of it. -/
theorem addWith_exact (hd : ¬d.hasDatePart = true) :
    x.addWith d locate = .ok y ↔ ∃ i, x.instant.addNanos d.nanos = .ok i ∧ x.withInstant i = .ok y := by
  dsimp only [addWith]
  rw [if_neg hd, pure_bind, bind_eq_ok]
  simp only [liftM_eq_ok]

theorem addWith_date (hd : d.hasDatePart = true) :
    x.addWith d locate = .ok y ↔ ∃ l s i, x.wall.shiftDate d.months d.days = .ok l ∧ locate l = .ok s ∧
      s.addNanos d.nanos = .ok i ∧ x.withInstant i = .ok y := by
  dsimp only [addWith]
  rw [if_pos hd]
  simp only [bind_eq_ok, liftM_eq_ok, exists_and_left]

theorem subtractWith_exact {i : Instant} (hd : ¬d.hasDatePart = true)
    (hi : x.instant.addNanos (-d.nanos) = .ok i) : x.subtractWith d locate = x.withInstant i := by
  rw [subtractWith, bind_of_eq_ok (liftM_eq_ok.mpr hi)]
  simp only [if_neg hd]
  exact bind_pure (x.withInstant i)

theorem subtractWith_date {m : ZonedDateTime} {i : Instant} {l : LocalDateTime} (hd : d.hasDatePart = true)
    (hi : x.instant.addNanos (-d.nanos) = .ok i) (hm : x.withInstant i = .ok m)
    (hl : m.wall.shiftDate (-d.months) (-d.days) = .ok l) :
    x.subtractWith d locate = locate l >>= x.withInstant := by
  rw [subtractWith, bind_of_eq_ok (liftM_eq_ok.mpr hi), bind_of_eq_ok hm, if_pos hd,
    bind_of_eq_ok (liftM_eq_ok.mpr hl)]

end ZonedDateTime
end CivilTime
