/- Equality and order between values of any type. Values bound to the time line compare by instant,
whatever their types. -/
import CivilTime.Datum.Order
import CivilTime.Value.Basic

namespace CivilTime.Value

/-- The order of two values, where their types have one. -/
def compare? : Value → Value → Option Ordering
  | date a, date b => some (compare a.dayNumber b.dayNumber)
  | time a, time b => some (compare a.nanos b.nanos)
  | localDateTime a, localDateTime b => some (compare a.epochNanos b.epochNanos)
  | offset a, offset b => some (compare a.seconds b.seconds)
  | unchecked a, unchecked b => a.order? b
  | a, b =>
    match a.exactNanos?, b.exactNanos? with
    | some m, some n => some (compare m n)
    | _, _ => none

/-- Values of types that do not compare differ. Durations are equal if their components are. -/
def equal : Value → Value → Bool
  | duration a _, duration b _ => decide (a = b)
  | unchecked a, unchecked b => a.same b
  | a, b => a.compare? b == some .eq

/-- Equality of type and of offset or zone besides the instant. -/
def exactEqual? : Value → Value → Option Bool
  | instant a, instant b => some (decide (a = b))
  | offsetDateTime a, offsetDateTime b => some (decide (a.nanos = b.nanos ∧ a.offset = b.offset))
  | zonedDateTime a, zonedDateTime b => some (decide (a.nanos = b.nanos ∧ a.zoneId = b.zoneId))
  | a, b =>
    match a.exactNanos?, b.exactNanos? with
    | some _, some _ => some false
    | _, _ => none

def isCompound : Value → Bool
  | unchecked d => d.isCompound
  | _ => false

/-- How many members the set of two values has. A compound value cannot be one. -/
def distinct? (a b : Value) : Option Nat :=
  if a.isCompound || b.isCompound then none else some (if a.equal b then 1 else 2)

end CivilTime.Value

namespace CivilTime.OffsetDateTime

theorem exactEqual_iff {v w : OffsetDateTime} :
    Value.exactEqual? (.offsetDateTime v) (.offsetDateTime w) = some true ↔ v = w := by
  show some (decide _) = some true ↔ _
  rw [Option.some.injEq, decide_eq_true_eq]
  constructor
  · rintro ⟨hnanos, hoffset⟩
    refine ext_wall_offset (LocalDateTime.ext_epochNanos ?_) hoffset
    simp only [nanos, toInstant, hoffset] at hnanos
    omega
  · rintro rfl
    exact ⟨rfl, rfl⟩

end CivilTime.OffsetDateTime
