/- Checked readings, and arithmetic on them as points of one time line. -/
import CivilTime.Date.Operations
import CivilTime.TimeOfDay.Operations

namespace CivilTime.LocalDateTime

/-- The reading at a given distance from the epoch. -/
def ofEpochNanos (n : Int) : Except Fault LocalDateTime :=
  match ofEpochNanos? n with
  | some l => .ok l
  | none => .error .readingOverflow

theorem ofEpochNanos_eq_ok {n : Int} {l : LocalDateTime} :
    ofEpochNanos n = .ok l ↔ l.epochNanos = n := by
  rw [← ofEpochNanos?_eq_some, ofEpochNanos]
  cases ofEpochNanos? n <;> simp

theorem ofEpochNanos_eq_error {n : Int} {f : Fault} (h : ofEpochNanos n = .error f) :
    f = .readingOverflow := by
  unfold ofEpochNanos at h
  split at h
  · cases h
  · cases h
    rfl

/-- Seven fields that need not be integers. -/
structure Fields where
  year : Datum
  month : Datum
  day : Datum
  hour : Datum := .int 0
  minute : Datum := .int 0
  second : Datum := .int 0
  nanosecond : Datum := .int 0

/-- The date is judged before the time. -/
def ofFields (f : Fields) : Except Fault LocalDateTime := do
  let date ← Date.ofFields f.year f.month f.day
  let time ← TimeOfDay.ofFields f.hour f.minute f.second f.nanosecond
  return ⟨date, time⟩

/-- Fields to put in place of those of a reading. -/
structure Changes where
  year : Option Datum := none
  month : Option Datum := none
  day : Option Datum := none
  hour : Option Datum := none
  minute : Option Datum := none
  second : Option Datum := none
  nanosecond : Option Datum := none

/-- The reading with some of its fields replaced. Nothing is clamped. -/
def replace (l : LocalDateTime) (c : Changes) : Except Fault LocalDateTime := do
  let date ← l.date.replace c.year c.month c.day
  let time ← l.time.replace c.hour c.minute c.second c.nanosecond
  return ⟨date, time⟩

/-- Moves the date and keeps the time of day. -/
def shiftDate (l : LocalDateTime) (months days : Int) : Except Fault LocalDateTime := do
  let date ← l.date.shift months days
  return ⟨date, l.time⟩

def shiftNanos (l : LocalDateTime) (nanos : Int) : Except Fault LocalDateTime :=
  ofEpochNanos (l.epochNanos + nanos)

/-- Months first, then days, then nanoseconds. -/
def add (l : LocalDateTime) (d : Duration) : Except Fault LocalDateTime := do
  let moved ← l.shiftDate d.months d.days
  moved.shiftNanos d.nanos

/-- Nanoseconds first, then months, then days. -/
def subtract (l : LocalDateTime) (d : Duration) : Except Fault LocalDateTime := do
  let moved ← l.shiftNanos (-d.nanos)
  moved.shiftDate (-d.months) (-d.days)

/-- The distance from an earlier reading: whole months, then whole days, then nanoseconds. -/
def since (later earlier : LocalDateTime) : Except Fault Duration := do
  let (months, days) ← Calendar.monthsDaysBetween earlier.date.dayNumber earlier.time.nanos
    later.date.dayNumber later.time.nanos
  let anchor ← earlier.shiftDate months days
  Duration.ofParts months days (later.epochNanos - anchor.epochNanos)

/-- The distance from `b` to `a`, negative if `a` is the earlier one. -/
def diff (a b : LocalDateTime) : Except Fault Duration :=
  if a < b then (-·) <$> b.since a else a.since b

/-- Rounds the time of day to a multiple of `step` nanoseconds. What rounds to a full day is midnight of
the next one. -/
def roundTo (l : LocalDateTime) (mode : RoundingMode) (step : Int) :
    Except Fault LocalDateTime := do
  let nanos := mode.roundTo l.time.nanos step
  if nanos = nanosPerDay then
    let date ← l.date.shift 0 1
    return ⟨date, TimeOfDay.midnight⟩
  else
    let time ← TimeOfDay.ofNanos nanos
    return ⟨l.date, time⟩

end CivilTime.LocalDateTime
