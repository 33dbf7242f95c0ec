/- Values taken apart into numbers, and made again from them with all checks. -/
import CivilTime.Value.Basic

namespace CivilTime.Value

/-- The numbers that a value is made again from. A zone cannot be stored in numbers. -/
def parts : Value → Except Error (List Datum)
  | date x => .ok [.int x.year, .int x.month, .int x.day]
  | time x => .ok [.int x.nanos]
  | localDateTime x => .ok [.int x.date.dayNumber, .int x.time.nanos]
  | instant x => .ok [.int x.nanos]
  | offset x => .ok [.int x.seconds]
  | offsetDateTime x => .ok [.int x.wall.date.dayNumber, .int x.wall.time.nanos, .int x.offset.seconds]
  | duration x truth => .ok [.int x.months, .int x.days, shownNanos x truth]
  | zonedDateTime _ => .error .zonedNotRebuilt
  | unchecked _ => .error .unsupported

/-- A duration whose nanoseconds are given as a truth value keeps them as one. -/
def durationOfParts (months days nanos : Datum) : Except Error Value := do
  let d ← Duration.ofPartFields months days nanos
  return match nanos with
    | .bool _ => duration d true
    | _ => ofDuration d

/-- The value of a type that has the given parts. -/
def ofParts (kind : ValueKind) (parts : List Datum) : Except Error Value :=
  match kind, parts with
  | .date, [year, month, day] => do return date (← Date.ofFields year month day)
  | .time, [nanos] => do return time (← TimeOfDay.ofNanosField nanos)
  | .localDateTime, [day, nanos] => do
    let d ← Date.ofDayNumberField day
    let t ← TimeOfDay.ofNanosField nanos
    return localDateTime ⟨d, t⟩
  | .instant, [nanos] => do return instant (← Instant.ofDatum nanos)
  | .offset, [] => return offset Offset.utc
  | .offset, [seconds] => do return offset (← Offset.ofDatum seconds)
  | .offsetDateTime, [day, nanos, seconds] => do
    let d ← Date.ofDayNumberField day
    let t ← TimeOfDay.ofNanosField nanos
    let o ← Offset.ofDatum seconds
    return offsetDateTime (← OffsetDateTime.of ⟨d, t⟩ o)
  | .duration, [months, days, nanos] => durationOfParts months days nanos
  | _, _ => throw .unsupported

end CivilTime.Value
