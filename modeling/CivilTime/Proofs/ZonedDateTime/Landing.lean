/- Where on the time line a reading lands if it is taken leniently: less than a day from where it would be at
offset zero. -/
import CivilTime.Proofs.Zone.Classification

namespace CivilTime

theorem Instant.ofNanos_error_kind {n : Int} {f : Fault} (hn : Text.Writable n) (h : ofNanos n = .error f) :
    (Error.fault f).kind = .rangeOverflow := by
  unfold ofNanos at h
  split at h
  · cases h
  · cases h
    exact naming_of_writable (List.forall_mem_singleton.mpr hn)

namespace Resolver

theorem instantOf_lenient {r : Resolver} {id : String} {z : Zone} (h : r.zones.find? id = some z)
    (wall : LocalDateTime) : ∃ o : Offset, r.instantOf id wall .compatible .shiftForward =
      liftM (Instant.ofNanos (wall.epochNanos - o.nanos)) := by
  obtain ⟨answer, hanswer, -⟩ := exists_resolve_shows h wall
  refine ⟨(answer.period .compatible).offset, ?_⟩
  rw [instantOf, hanswer]
  cases answer with
  | unique p => rfl
  | fold p q t => rfl
  | gap p q t => rfl

theorem exists_find?_of_periodAt {r : Resolver} {id : String} {i : Instant} {p : Period}
    (h : r.periodAt id i = .ok p) : ∃ z, r.zones.find? id = some z := by
  cases hz : r.zones.find? id with
  | some z => exact ⟨z, rfl⟩
  | none =>
    rw [periodAt, lookup_eq, zone, hz] at h
    cases h

end Resolver

namespace ZonedDateTime

/-- The instant that a reading stands for in the zone of a value. -/
def landing (x : ZonedDateTime) (l : LocalDateTime) : Except Error Instant :=
  x.resolver.instantOf x.zoneId l .compatible .shiftForward

variable {x : ZonedDateTime} {l : LocalDateTime} {i : Instant}

theorem exists_landing_eq (x : ZonedDateTime) (l : LocalDateTime) :
    ∃ o : Offset, x.landing l = liftM (Instant.ofNanos (l.epochNanos - o.nanos)) := by
  obtain ⟨z, hz⟩ := Resolver.exists_find?_of_periodAt x.period_eq
  exact Resolver.instantOf_lenient hz l

theorem landing_error_kind {e : Error} (h : x.landing l = .error e) : e.kind = .rangeOverflow := by
  obtain ⟨o, ho⟩ := exists_landing_eq x l
  obtain ⟨f, hf, rfl⟩ := liftM_eq_error.mp (ho.symm.trans h)
  exact Instant.ofNanos_error_kind (l.writable_sub_offset o) hf

theorem landing_near (h : x.landing l = .ok i) :
    l.epochNanos - nanosPerDay < i.nanos ∧ i.nanos < l.epochNanos + nanosPerDay := by
  obtain ⟨o, ho⟩ := exists_landing_eq x l
  rw [ho, liftM_eq_ok, Instant.ofNanos_eq_ok] at h
  have := o.nanos_bounds
  omega

theorem wall_near (x : ZonedDateTime) :
    x.wall.epochNanos - nanosPerDay < x.nanos ∧ x.nanos < x.wall.epochNanos + nanosPerDay := by
  have h := x.wall_eq
  have := x.period.offset.nanos_bounds
  simp only [nanos]
  omega

/-- A day inside the range, no offset leads out of it. -/
theorem exists_landing (h0 : Instant.firstNanos + nanosPerDay ≤ l.epochNanos)
    (h1 : l.epochNanos + nanosPerDay ≤ Instant.lastNanos) : ∃ i, x.landing l = .ok i := by
  obtain ⟨o, ho⟩ := exists_landing_eq x l
  have := o.nanos_bounds
  refine ⟨⟨l.epochNanos - o.nanos, by omega, by omega⟩, ?_⟩
  rw [ho, liftM_eq_ok, Instant.ofNanos_eq_ok]

/-- A reading two days before that of a value is always before the value. -/
theorem landing_lt {y : ZonedDateTime} (h : y.landing l = .ok i)
    (hl : l.epochNanos + 2 * nanosPerDay ≤ x.wall.epochNanos) : i.nanos < x.nanos := by
  have h0 := landing_near h
  have h1 := x.wall_near
  omega

end ZonedDateTime
end CivilTime
