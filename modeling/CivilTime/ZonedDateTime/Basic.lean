/- Instants with a zone to read them in. -/
import CivilTime.OffsetDateTime.Operations
import CivilTime.Zone.Resolver

namespace CivilTime

/-- An instant and a zone known to a resolver, with the period in effect and the reading of a clock in
the zone. The reading is within the years 1 to 9999. -/
structure ZonedDateTime where
  resolver : Resolver
  zoneId : String
  instant : Instant
  period : Period
  wall : LocalDateTime
  period_eq : resolver.periodAt zoneId instant = .ok period
  wall_eq : wall.epochNanos = instant.nanos + period.offset.nanos

namespace ZonedDateTime

def offset (z : ZonedDateTime) : Offset := z.period.offset

def nanos (z : ZonedDateTime) : Int := z.instant.nanos

/-- What a clock in the zone reads at an instant. -/
def ofInstant (i : Instant) (zoneId : String) (r : Resolver) : Except Error ZonedDateTime :=
  match hp : r.periodAt zoneId i with
  | .error e => .error e
  | .ok period =>
    match hw : LocalDateTime.ofEpochNanos (i.nanos + period.offset.nanos) with
    | .error f => .error (.fault f)
    | .ok wall =>
      .ok
        { resolver := r, zoneId, instant := i, period, wall
          period_eq := hp
          wall_eq := LocalDateTime.ofEpochNanos_eq_ok.mp hw }

theorem ofInstant_fields {i : Instant} {id : String} {r : Resolver} {z : ZonedDateTime}
    (h : ofInstant i id r = .ok z) : z.instant = i ∧ z.zoneId = id ∧ z.resolver = r := by
  unfold ofInstant at h
  split at h
  · cases h
  · split at h
    · cases h
    · cases h
      exact ⟨rfl, rfl, rfl⟩

/-- The same value is made again from its instant, zone and resolver. -/
theorem ofInstant_self (z : ZonedDateTime) : ofInstant z.instant z.zoneId z.resolver = .ok z := by
  unfold ofInstant
  split
  · rename_i e he
    rw [z.period_eq] at he
    cases he
  · rename_i p hp
    rw [z.period_eq] at hp
    cases hp
    split
    · rename_i f hf
      rw [LocalDateTime.ofEpochNanos_eq_ok.mpr z.wall_eq] at hf
      cases hf
    · rename_i w hw
      rw [LocalDateTime.ofEpochNanos_eq_ok.mpr z.wall_eq] at hw
      cases hw
      rfl

/-- The instant that a wall-clock time stands for under the policies. -/
def ofWall (wall : LocalDateTime) (zoneId : String) (r : Resolver) (fold : FoldPolicy)
    (gap : GapPolicy) : Except Error ZonedDateTime := do
  let i ← r.instantOf zoneId wall fold gap
  ofInstant i zoneId r

/-- The value as a reading at a fixed offset. -/
def toOffset (z : ZonedDateTime) : OffsetDateTime :=
  ⟨z.wall, z.offset,
    by have := z.wall_eq; have := z.instant.firstNanos_le; simp only [offset]; omega,
    by have := z.wall_eq; have := z.instant.le_lastNanos; simp only [offset]; omega⟩

theorem toOffset_toInstant (z : ZonedDateTime) : z.toOffset.toInstant = z.instant := by
  apply Instant.ext_nanos
  have := z.wall_eq
  simp only [toOffset, OffsetDateTime.toInstant, offset]
  omega

/-- The same instant in another zone. -/
def toZone (z : ZonedDateTime) (zoneId : String) : Except Error ZonedDateTime :=
  ofInstant z.instant zoneId z.resolver

def withInstant (z : ZonedDateTime) (i : Instant) : Except Error ZonedDateTime :=
  ofInstant i z.zoneId z.resolver

/-- The zone shows the reading more than once. -/
def isAmbiguous (z : ZonedDateTime) : Except Error Bool := do
  let answer ← z.resolver.resolve z.zoneId z.wall
  return answer.isFold

/-- The reading with its offset, which is written in numbers also at zero, and the zone. -/
def chars (z : ZonedDateTime) : List Char :=
  z.wall.chars ++ z.offset.chars ++ '[' :: z.zoneId.toList ++ [']']

def text (z : ZonedDateTime) : String := String.ofList z.chars

end ZonedDateTime

end CivilTime
