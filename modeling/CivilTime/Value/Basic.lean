/- Values of any of the types of the library. -/
import CivilTime.ZonedDateTime.Operations

namespace CivilTime

inductive ValueKind where
  | date | time | localDateTime | instant | offset | offsetDateTime | zonedDateTime | duration
  deriving DecidableEq, Repr

namespace ValueKind

def all : List ValueKind :=
  [date, time, localDateTime, instant, offset, offsetDateTime, zonedDateTime, duration]

def name : ValueKind → String
  | date => "Date"
  | time => "Time"
  | localDateTime => "LocalDateTime"
  | instant => "Instant"
  | offset => "UtcOffset"
  | offsetDateTime => "OffsetDateTime"
  | zonedDateTime => "ZonedDateTime"
  | duration => "Duration"

def ofName? (s : String) : Option ValueKind := all.find? fun k => k.name == s

theorem ofName?_name (k : ValueKind) : ofName? k.name = some k := by
  cases k <;> rfl

end ValueKind

/-- A value of one of the eight types, or an unchecked value in its place. The nanoseconds of a duration
that were given as a truth value are shown as one. -/
inductive Value where
  | date (x : Date)
  | time (x : TimeOfDay)
  | localDateTime (x : LocalDateTime)
  | instant (x : Instant)
  | offset (x : Offset)
  | offsetDateTime (x : OffsetDateTime)
  | zonedDateTime (x : ZonedDateTime)
  | duration (x : Duration) (truth : Bool)
  | unchecked (x : Datum)

namespace Value

def kind? : Value → Option ValueKind
  | date _ => some .date
  | time _ => some .time
  | localDateTime _ => some .localDateTime
  | instant _ => some .instant
  | offset _ => some .offset
  | offsetDateTime _ => some .offsetDateTime
  | zonedDateTime _ => some .zonedDateTime
  | duration .. => some .duration
  | unchecked _ => none

/-- The word for the type in messages. -/
def typeName : Value → String
  | unchecked d => d.kindName
  | v => (v.kind?.map ValueKind.name).getD ""

/-- The canonical text. -/
def text : Value → String
  | date x => x.text
  | time x => x.text
  | localDateTime x => x.text
  | instant x => x.text
  | offset x => x.text
  | offsetDateTime x => x.text
  | zonedDateTime x => x.text
  | duration x _ => x.text
  | unchecked d => d.plain

/-- A duration with nanoseconds that are an integer. -/
def ofDuration (d : Duration) : Value := duration d false

/-- The nanoseconds of a duration as they were given. -/
def shownNanos (d : Duration) (truth : Bool) : Datum :=
  if truth then .bool (d.nanos != 0) else .int d.nanos

/-- The date that a value shows. -/
def date? : Value → Option Date
  | date x => some x
  | localDateTime x => some x.date
  | offsetDateTime x => some x.wall.date
  | zonedDateTime x => some x.wall.date
  | _ => none

/-- The time of day that a value shows. -/
def time? : Value → Option TimeOfDay
  | time x => some x
  | localDateTime x => some x.time
  | offsetDateTime x => some x.wall.time
  | zonedDateTime x => some x.wall.time
  | _ => none

/-- How a value is shown for inspection: as a call that lists its fields, or around its text. -/
def display : Value → String
  | date x => s!"Date({list [x.year, x.month, x.day]})"
  | time x => s!"Time({clock x})"
  | localDateTime x => s!"LocalDateTime({list [x.year, x.month, x.day]}, {clock x.time})"
  | duration x truth =>
    let months := Text.integer x.months
    let days := Text.integer x.days
    s!"Duration(months={months}, days={days}, nanoseconds={(shownNanos x truth).display})"
  | unchecked d => d.display
  | v => s!"{v.typeName}({v.text})"
where
  list (ns : List Int) : String := ", ".intercalate (ns.map Text.integer)
  clock (t : TimeOfDay) : String :=
    s!"{list [t.hour, t.minute, t.second]}, nanosecond={Text.integer t.nanosecond}"

/-- Nanoseconds since the epoch, for values that are bound to the time line. -/
def exactNanos? : Value → Option Int
  | instant x => some x.nanos
  | offsetDateTime x => some x.nanos
  | zonedDateTime x => some x.nanos
  | _ => none

end Value

end CivilTime
