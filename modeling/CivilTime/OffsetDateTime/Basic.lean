/- A local reading together with the offset of the clock it was read from. -/
import CivilTime.Instant.Basic
import CivilTime.Offset.Basic

namespace CivilTime

/-- A reading at a fixed offset. It denotes an instant, and that instant is in range. -/
structure OffsetDateTime where
  wall : LocalDateTime
  offset : Offset
  firstNanos_le : Instant.firstNanos ≤ wall.epochNanos - offset.nanos
  le_lastNanos : wall.epochNanos - offset.nanos ≤ Instant.lastNanos
  deriving DecidableEq

namespace OffsetDateTime

theorem ext_wall_offset {a b : OffsetDateTime} (hw : a.wall = b.wall) (ho : a.offset = b.offset) :
    a = b := by
  cases a
  cases b
  cases hw
  cases ho
  rfl

/-- The instant at which a clock at this offset shows this reading. -/
def toInstant (x : OffsetDateTime) : Instant :=
  ⟨x.wall.epochNanos - x.offset.nanos, x.firstNanos_le, x.le_lastNanos⟩

/-- The reading of a clock at the given offset, if it is within the years 1 to 9999. -/
def ofInstant? (i : Instant) (offset : Offset) : Option OffsetDateTime :=
  match h : LocalDateTime.ofEpochNanos? (i.nanos + offset.nanos) with
  | none => none
  | some wall =>
    have e := LocalDateTime.ofEpochNanos?_eq_some.mp h
    some ⟨wall, offset, by have := i.firstNanos_le; omega, by have := i.le_lastNanos; omega⟩

theorem ofInstant?_eq_some {i : Instant} {offset : Offset} {x : OffsetDateTime} :
    ofInstant? i offset = some x ↔ x.toInstant = i ∧ x.offset = offset := by
  unfold ofInstant?
  constructor
  · intro h
    split at h
    · cases h
    · rename_i wall hw
      cases h
      have e := LocalDateTime.ofEpochNanos?_eq_some.mp hw
      exact ⟨Instant.ext_nanos (by simp only [toInstant]; omega), rfl⟩
  · rintro ⟨hi, rfl⟩
    have e : x.wall.epochNanos = i.nanos + x.offset.nanos := by
      have := congrArg Instant.nanos hi
      simp only [toInstant] at this
      omega
    have hw := LocalDateTime.ofEpochNanos?_eq_some.mpr e
    split
    · rename_i h
      rw [hw] at h
      cases h
    · rename_i wall h
      rw [hw] at h
      cases h
      rfl

/-- The given reading and offset, if the instant they denote is in range. -/
def of? (wall : LocalDateTime) (offset : Offset) : Option OffsetDateTime :=
  if h : Instant.firstNanos ≤ wall.epochNanos - offset.nanos ∧
      wall.epochNanos - offset.nanos ≤ Instant.lastNanos then
    some ⟨wall, offset, h.1, h.2⟩
  else none

def nanos (x : OffsetDateTime) : Int := x.toInstant.nanos

end OffsetDateTime

namespace Instant

/-- The reading of this instant at offset zero. -/
def atUtc (i : Instant) : OffsetDateTime :=
  ⟨i.utcReading, Offset.utc, by
    have := i.utcReading.epochNanos_bounds.1
    simpa [Offset.utc, Offset.nanos] using this, by
    have := i.utcReading.epochNanos_bounds.2
    simpa [Offset.utc, Offset.nanos] using this⟩

theorem toInstant_atUtc (i : Instant) : i.atUtc.toInstant = i := by
  apply ext_nanos
  have := i.utcReading_epochNanos
  simp only [atUtc, OffsetDateTime.toInstant, Offset.utc, Offset.nanos]
  omega

end Instant

end CivilTime
