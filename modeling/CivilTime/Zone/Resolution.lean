/- Which instants read a wall-clock time in a zone: exactly one, several of which the first and the last
matter, or none. -/
import CivilTime.Instant.Operations
import CivilTime.Zone.Lookup
import CivilTime.Zone.Policy

namespace CivilTime

/-- How a zone shows a wall-clock time. In a fold the clocks were set back at the transition, and the
periods are those of the first and the last occurrence. In a gap they were set forward at the
transition, and the periods are those around it. -/
inductive Resolution where
  | unique (period : Period)
  | fold (earlier later : Period) (transition : Int)
  | gap (earlier later : Period) (transition : Int)

namespace Resolution

def earlier : Resolution → Period
  | unique p => p
  | fold p _ _ => p
  | gap p _ _ => p

def later : Resolution → Period
  | unique p => p
  | fold _ p _ => p
  | gap _ p _ => p

def transition? : Resolution → Option Int
  | unique _ => none
  | fold _ _ t => some t
  | gap _ _ t => some t

def isUnique : Resolution → Bool
  | unique _ => true
  | _ => false

def isFold : Resolution → Bool
  | fold .. => true
  | _ => false

end Resolution

namespace Lookup

/-- The last second that ends a day or more before the wall-clock time as read at offset zero. No offset
reaches further. -/
def windowStart (wall : Int) : Int := (wall - nanosPerDay) / nanosPerSecond

def windowEnd (wall : Int) : Int := (wall + nanosPerDay) / nanosPerSecond

/-- The changes that can matter for a wall-clock time. -/
def nearby (x : Lookup) (wall : Int) : List Change :=
  x.changesBetween (windowStart wall) (windowEnd wall)

/-- The offsets that can be in effect when a clock in the zone reads the time, each once. -/
def offsetsNear (x : Lookup) (wall : Int) : List Offset :=
  ((x.periodAt (windowStart wall)).offset :: (x.nearby wall).map fun c => c.after.offset).eraseDups

/-- An instant at which a clock in the zone reads a given time, and the period in effect at it. -/
structure Occurrence where
  instant : Int
  period : Period

/-- The instant at which a clock at the offset reads the time, if the zone has that offset then. -/
def occurrenceAt? (x : Lookup) (wall : Int) (offset : Offset) : Option Occurrence :=
  let instant := wall - offset.nanos
  let period := x.periodAt (instant / nanosPerSecond)
  if period.offset = offset then some { instant, period } else none

/-- All occurrences of a wall-clock time, the earliest first. -/
def occurrences (x : Lookup) (wall : Int) : List Occurrence :=
  ((x.offsetsNear wall).filterMap (x.occurrenceAt? wall)).mergeSort
    fun a b => decide (a.instant ≤ b.instant)

/-- The first change after the one instant and up to the other. -/
def foldChange? (x : Lookup) (wall first last : Int) : Option Change :=
  (x.nearby wall).find? fun c =>
    decide (first < c.time * nanosPerSecond ∧ c.time * nanosPerSecond ≤ last)

/-- The first change that sets clocks from at most the time to past it. -/
def gapChange? (x : Lookup) (wall : Int) : Option Change :=
  (x.nearby wall).find? fun c =>
    decide (c.time * nanosPerSecond + c.before.offset.nanos ≤ wall ∧
      wall < c.time * nanosPerSecond + c.after.offset.nanos)

/-- The answer for a wall-clock time, given as nanoseconds since the epoch as read. -/
def resolve? (x : Lookup) (wall : Int) : Option Resolution :=
  match x.occurrences wall with
  | [] => (x.gapChange? wall).map fun c => .gap c.before c.after c.time
  | [o] => some (.unique o.period)
  | first :: second :: rest =>
    let last := (second :: rest).getLast (by simp)
    (x.foldChange? wall first.instant last.instant).map fun c =>
      .fold first.period last.period c.time

end Lookup

namespace Resolution

/-- The period whose offset turns the reading into an instant. A time in a gap is read with the offset
before it. -/
def period (r : Resolution) (policy : FoldPolicy) : Period :=
  match r with
  | unique p => p
  | fold earlier later _ => if policy.prefersEarlier then earlier else later
  | gap earlier _ _ => earlier

end Resolution

end CivilTime
