/- Counts of seconds or parts of seconds since the epoch. -/
import CivilTime.Datum.Arithmetic
import CivilTime.Value.Basic

namespace CivilTime

inductive UnixUnit where
  | seconds | millis | micros | nanos
  deriving DecidableEq, Repr

def UnixUnit.size : UnixUnit → Int
  | seconds => nanosPerSecond
  | millis => nanosPerMillisecond
  | micros => nanosPerMicrosecond
  | nanos => 1

/-- A count in nanoseconds. What is no whole number stays none, and what cannot be multiplied at all has
no such count. -/
def UnixUnit.scale (unit : UnixUnit) (count : Datum) : Except Error Datum :=
  match unit with
  | nanos => .ok count
  | _ =>
    match count.multiple? unit.size with
    | some d => .ok d
    | none => .error .unsupported

/-- The instant a count of units after the epoch. -/
def Instant.ofUnix (unit : UnixUnit) (count : Datum) : Except Error Instant := do
  let nanos ← unit.scale count
  Instant.ofDatum nanos

namespace Value

/-- Whole units since the epoch, rounded to the past. -/
def toUnix (unit : UnixUnit) (v : Value) : Except Error Int :=
  match v.exactNanos? with
  | some n => .ok (n / unit.size)
  | none => .error (.expectedExactTime v.typeName)

/-- An instant, or with an offset the reading at it. -/
def ofUnix (unit : UnixUnit) (count : Datum) (offset : Option Offset) : Except Error Value := do
  let i ← Instant.ofUnix unit count
  match offset with
  | none => return instant i
  | some o => do return offsetDateTime (← OffsetDateTime.ofInstant i o)

end Value

end CivilTime
