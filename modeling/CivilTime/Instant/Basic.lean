/- Points of the time line, counted in nanoseconds from the epoch. -/
import CivilTime.LocalDateTime.Basic

namespace CivilTime

namespace Instant

/-- The count at 0001-01-01T00:00:00Z. -/
def firstNanos : Int := (Calendar.firstDay - Calendar.epochDay) * nanosPerDay

/-- The count at 9999-12-31T23:59:59.999999999Z. -/
def lastNanos : Int := (Calendar.lastDay - Calendar.epochDay + 1) * nanosPerDay - 1

end Instant

/-- A point of the time line whose UTC reading is in the years 1 to 9999. -/
structure Instant where
  nanos : Int
  firstNanos_le : Instant.firstNanos ≤ nanos
  le_lastNanos : nanos ≤ Instant.lastNanos
  deriving DecidableEq

namespace Instant

theorem ext_nanos {a b : Instant} (h : a.nanos = b.nanos) : a = b := by
  cases a
  cases b
  cases h
  rfl

def min : Instant := ⟨firstNanos, by decide, by decide⟩

def max : Instant := ⟨lastNanos, by decide, by decide⟩

def ofNanos? (n : Int) : Option Instant :=
  if h : firstNanos ≤ n ∧ n ≤ lastNanos then some ⟨n, h.1, h.2⟩ else none

theorem ofNanos?_eq_some {n : Int} {i : Instant} : ofNanos? n = some i ↔ i.nanos = n := by
  unfold ofNanos?
  split
  · rename_i h
    constructor
    · intro e
      cases e
      rfl
    · intro e
      exact congrArg some (ext_nanos e.symm)
  · rename_i h
    constructor
    · intro e
      cases e
    · intro e
      exact absurd ⟨e ▸ i.firstNanos_le, e ▸ i.le_lastNanos⟩ h

/-- Whole seconds since the epoch, rounded to the past. -/
def unixSeconds (i : Instant) : Int := i.nanos / nanosPerSecond

def unixMillis (i : Instant) : Int := i.nanos / nanosPerMillisecond

def unixMicros (i : Instant) : Int := i.nanos / nanosPerMicrosecond

end Instant

namespace LocalDateTime

theorem epochNanos_bounds (l : LocalDateTime) :
    Instant.firstNanos ≤ l.epochNanos ∧ l.epochNanos ≤ Instant.lastNanos := by
  have h0 := l.time.nonneg
  have h1 := l.time.lt_day
  have h2 := l.date.firstDay_le
  have h3 := l.date.le_lastDay
  simp only [Instant.firstNanos, Instant.lastNanos, epochNanos, nanosPerDay, Calendar.firstDay,
    Calendar.lastDay, Calendar.epochDay] at *
  omega

/-- The instant whose UTC reading this is. -/
def assumeUtc (l : LocalDateTime) : Instant :=
  ⟨l.epochNanos, l.epochNanos_bounds.1, l.epochNanos_bounds.2⟩

end LocalDateTime

namespace Instant

/-- What a clock set to UTC reads. -/
def utcReading (i : Instant) : LocalDateTime :=
  ⟨⟨Calendar.epochDay + i.nanos / nanosPerDay, by
      have h0 := i.firstNanos_le
      simp only [firstNanos, nanosPerDay, Calendar.firstDay, Calendar.epochDay] at *
      omega, by
      have h1 := i.le_lastNanos
      simp only [lastNanos, nanosPerDay, Calendar.lastDay, Calendar.epochDay] at *
      omega⟩,
    ⟨i.nanos % nanosPerDay, by simp only [nanosPerDay]; omega, by simp only [nanosPerDay]; omega⟩⟩

theorem utcReading_epochNanos (i : Instant) : i.utcReading.epochNanos = i.nanos := by
  simp only [utcReading, LocalDateTime.epochNanos, nanosPerDay]
  omega

end Instant

end CivilTime
