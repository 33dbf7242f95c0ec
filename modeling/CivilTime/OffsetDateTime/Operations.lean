/- Checked readings at an offset, and arithmetic that keeps the offset. -/
import CivilTime.Instant.Operations
import CivilTime.LocalDateTime.Operations
import CivilTime.Offset.Operations

namespace CivilTime

namespace OffsetDateTime

/-- A reading at an offset, unless the instant they denote is out of range. -/
def of (wall : LocalDateTime) (offset : Offset) : Except Fault OffsetDateTime :=
  match of? wall offset with
  | some x => .ok x
  | none => .error (.instantOverflow (wall.epochNanos - offset.nanos))

theorem of_eq_ok {wall : LocalDateTime} {offset : Offset} {x : OffsetDateTime} :
    of wall offset = .ok x ↔ x.wall = wall ∧ x.offset = offset := by
  unfold of of?
  constructor
  · intro h
    split at h
    · rename_i y hy
      cases h
      split at hy
      · cases hy
        exact ⟨rfl, rfl⟩
      · cases hy
    · cases h
  · rintro ⟨rfl, rfl⟩
    rw [dif_pos ⟨x.firstNanos_le, x.le_lastNanos⟩]

/-- What a clock at the offset reads at an instant. -/
def ofInstant (i : Instant) (offset : Offset) : Except Fault OffsetDateTime :=
  match ofInstant? i offset with
  | some x => .ok x
  | none => .error .readingOverflow

theorem ofInstant_eq_ok {i : Instant} {offset : Offset} {x : OffsetDateTime} :
    ofInstant i offset = .ok x ↔ x.toInstant = i ∧ x.offset = offset := by
  rw [← ofInstant?_eq_some, ofInstant]
  cases ofInstant? i offset <;> simp

/-- The same instant as read at another offset. -/
def toOffset (x : OffsetDateTime) (offset : Offset) : Except Fault OffsetDateTime :=
  ofInstant x.toInstant offset

def replace (x : OffsetDateTime) (c : LocalDateTime.Changes) (offset : Option Offset) :
    Except Fault OffsetDateTime := do
  let wall ← x.wall.replace c
  of wall (offset.getD x.offset)

/-- The reading moves, and the offset stays. -/
def add (x : OffsetDateTime) (d : Duration) : Except Fault OffsetDateTime := do
  let wall ← x.wall.add d
  of wall x.offset

def subtract (x : OffsetDateTime) (d : Duration) : Except Fault OffsetDateTime := do
  let wall ← x.wall.subtract d
  of wall x.offset

/-- The distance from an earlier value, both read at the offset of the later one. -/
def since (later earlier : OffsetDateTime) : Except Fault Duration := do
  let start ← earlier.toOffset later.offset
  later.wall.diff start.wall

/-- The distance from `b` to `a`, negative if `a` is the earlier one. -/
def diff (a b : OffsetDateTime) : Except Fault Duration :=
  if a.nanos < b.nanos then (-·) <$> b.since a else a.since b

end OffsetDateTime

end CivilTime
