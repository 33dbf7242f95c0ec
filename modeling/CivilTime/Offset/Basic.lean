/- Distances of a local clock from UTC, in whole seconds. -/
import CivilTime.Nanos

namespace CivilTime

/-- Seconds that a local clock is ahead of UTC, less than a day either way. -/
structure Offset where
  seconds : Int
  neg_day_lt : -secondsPerDay < seconds
  lt_day : seconds < secondsPerDay
  deriving DecidableEq

namespace Offset

theorem ext_seconds {a b : Offset} (h : a.seconds = b.seconds) : a = b := by
  cases a
  cases b
  cases h
  rfl

/-- Offsets are ordered from west to east. -/
instance : LT Offset := ⟨fun a b => a.seconds < b.seconds⟩

instance : LE Offset := ⟨fun a b => a.seconds ≤ b.seconds⟩

instance (a b : Offset) : Decidable (a < b) :=
  inferInstanceAs (Decidable (a.seconds < b.seconds))

instance (a b : Offset) : Decidable (a ≤ b) :=
  inferInstanceAs (Decidable (a.seconds ≤ b.seconds))

def utc : Offset := ⟨0, by decide, by decide⟩

def ofSeconds? (n : Int) : Option Offset :=
  if h : -secondsPerDay < n ∧ n < secondsPerDay then some ⟨n, h.1, h.2⟩ else none

theorem ofSeconds?_eq_some {n : Int} {o : Offset} : ofSeconds? n = some o ↔ o.seconds = n := by
  unfold ofSeconds?
  split
  · rename_i h
    constructor
    · intro e
      cases e
      rfl
    · intro e
      exact congrArg some (ext_seconds e.symm)
  · rename_i h
    constructor
    · intro e
      cases e
    · intro e
      exact absurd ⟨e ▸ o.neg_day_lt, e ▸ o.lt_day⟩ h

def nanos (o : Offset) : Int := o.seconds * nanosPerSecond

theorem nanos_bounds (o : Offset) : -nanosPerDay < o.nanos ∧ o.nanos < nanosPerDay := by
  have h0 := o.neg_day_lt
  have h1 := o.lt_day
  simp only [nanos, nanosPerDay, nanosPerSecond, secondsPerDay] at *
  omega

def isUtc (o : Offset) : Bool := o.seconds == 0

instance : Neg Offset :=
  ⟨fun o => ⟨-o.seconds, by have := o.lt_day; omega, by have := o.neg_day_lt; omega⟩⟩

end Offset

end CivilTime
