/- Arithmetic on values of any type. What a type does not have is an error of its own. -/
import CivilTime.Datum.Arithmetic
import CivilTime.Value.Basic

namespace CivilTime.Value

/-- Moves a value by a duration. Only a zone needs policies. -/
def add (v : Value) (d : Duration) (names : PolicyNames) : Except Error Value :=
  match v with
  | date x => do return date (← x.add d)
  | time x => do return time (← x.add d)
  | localDateTime x => do return localDateTime (← x.add d)
  | instant x => do return instant (← x.add d)
  | offsetDateTime x => do return offsetDateTime (← x.add d)
  | zonedDateTime x => do return zonedDateTime (← x.addNamed d names)
  | _ => throw .unsupported

def subtract (v : Value) (d : Duration) (names : PolicyNames) : Except Error Value :=
  match v with
  | date x => do return date (← x.subtract d)
  | time x => do return time (← x.subtract d)
  | localDateTime x => do return localDateTime (← x.subtract d)
  | instant x => do return instant (← x.subtract d)
  | offsetDateTime x => do return offsetDateTime (← x.subtract d)
  | zonedDateTime x => do return zonedDateTime (← x.subtractNamed d names)
  | _ => throw .unsupported

/-- Moves a value by a duration or what stands in its place. A date looks at the seconds of an offset
before it asks for months. -/
def addAny (v d : Value) (names : PolicyNames) : Except Error Value :=
  match v, d with
  | v, duration d _ => v.add d names
  | date _, offset o =>
    throw (if o.isUtc then .unsupported else .fault (.offsetForDate o))
  | _, _ => throw .unsupported

def subtractAny (v d : Value) (names : PolicyNames) : Except Error Value :=
  match v, d with
  | v, duration d _ => v.subtract d names
  | date _, offset o => v.addAny (offset (-o)) names
  | _, _ => throw .unsupported

/-- A distance: a duration, or between instants a number of nanoseconds. -/
inductive Distance where
  | duration (d : Duration)
  | nanos (n : Int)

/-- The distance from `b` to `a`, which have to be of one type. -/
def diff (a b : Value) : Except Error Distance :=
  match a, b with
  | date x, date y => do return .duration (← x.diff y)
  | time x, time y => do return .duration (← x.diff y)
  | localDateTime x, localDateTime y => do return .duration (← x.diff y)
  | instant x, instant y => return .nanos (x.diff y)
  | offsetDateTime x, offsetDateTime y => do return .duration (← x.diff y)
  | zonedDateTime x, zonedDateTime y => do return .duration (← x.diff y)
  | offset _, _ | duration .., _ | unchecked _, _ => throw .unsupported
  | _, _ => throw (.cannotDiff a.typeName b.typeName)

/-- What comes of unchecked values, if anything does. -/
def ofDatum? : Option Datum → Except Error Value
  | some d => .ok (unchecked d)
  | none => .error .unsupported

/-- A sum with a duration on the right. -/
def plus (a b : Value) : Except Error Value :=
  match a, b with
  | duration x _, duration y _ => do return ofDuration (← x.add y)
  | _, duration d _ => a.add d {}
  | unchecked x, unchecked y => ofDatum? (x.plus? y)
  | _, _ => throw .unsupported

/-- A difference from a duration, or between two values of one type. -/
def minus (a b : Value) : Except Error Value :=
  match a, b with
  | duration x _, duration y _ => do return ofDuration (← x.sub y)
  | _, duration d _ => a.subtract d {}
  | unchecked x, unchecked y => ofDatum? (x.minus? y)
  | _, _ =>
    if a.kind? = b.kind? then do
      match ← a.diff b with
      | .duration d => return ofDuration d
      | .nanos n => do return ofDuration (← Duration.ofNanos n)
    else throw .unsupported

/-- A multiple of a duration. Only integers count, and they may stand on either side. -/
def times (a b : Value) : Except Error Value :=
  match a, b with
  | duration d _, unchecked (.int k) => do return ofDuration (← d.scale k)
  | unchecked (.int k), duration d _ => do return ofDuration (← d.scale k)
  | unchecked x, unchecked y => ofDatum? (x.times? y)
  | _, _ => throw .unsupported

def negate : Value → Except Error Value
  | duration d _ => .ok (ofDuration (-d))
  | offset o => .ok (offset (-o))
  | unchecked d => ofDatum? d.negative?
  | _ => .error .unsupported

/-- Only durations can be taken as they are. -/
def plain : Value → Except Error Value
  | duration d truth => .ok (duration d truth)
  | unchecked d => ofDatum? d.plain?
  | _ => .error .unsupported

def magnitude : Value → Except Error Value
  | duration d truth => .ok (if d.isNegative then ofDuration (-d) else duration d truth)
  | unchecked d => ofDatum? d.magnitude?
  | _ => .error .unsupported

/-- Fields to put in place of those of a value: those of a reading, and the seconds of an offset. -/
structure Changes extends LocalDateTime.Changes where
  offset : Option Offset := none

/-- The value with some of its fields replaced. -/
def replace (v : Value) (c : Changes) (names : PolicyNames) : Except Error Value :=
  match v with
  | date x => do return date (← x.replace c.year c.month c.day)
  | time x => do return time (← x.replace c.hour c.minute c.second c.nanosecond)
  | localDateTime x => do return localDateTime (← x.replace c.toChanges)
  | offsetDateTime x => do return offsetDateTime (← x.replace c.toChanges c.offset)
  | zonedDateTime x => do return zonedDateTime (← x.replace c.toChanges names)
  | _ => throw .unsupported

end CivilTime.Value
