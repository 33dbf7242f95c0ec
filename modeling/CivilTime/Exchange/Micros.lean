/- Exchange with clocks that count microseconds. Finer digits are dropped on the way out. -/
import CivilTime.Value.Basic

namespace CivilTime

/-- A time of day with microseconds. -/
structure MicroTime where
  hour : Int
  minute : Int
  second : Int
  micros : Int
  deriving DecidableEq, Repr

/-- A date-time with microseconds, which may have an offset in microseconds and a name for it. -/
structure MicroDateTime where
  date : YearMonthDay
  time : MicroTime
  offsetMicros : Option Int
  name : Option String
  deriving DecidableEq, Repr

/-- A span as days, seconds and microseconds. -/
structure MicroSpan where
  days : Int
  seconds : Int
  micros : Int
  deriving DecidableEq, Repr

namespace MicroSpan

def microsPerSecond : Int := 1000000
def microsPerDay : Int := 86400000000

/-- Seconds and microseconds are not negative and do not fill a day or a second. -/
def ofMicros (n : Int) : MicroSpan :=
  { days := n / microsPerDay
    seconds := n % microsPerDay / microsPerSecond
    micros := n % microsPerSecond }

/-- Adds a number of units to whole microseconds and a rest. The fraction of the number goes to the rest as
far as it is less than a microsecond. -/
def addUnits (unit : Int) (q : Quantity) (sum : Int × Float) : Int × Float :=
  match q with
  | .whole n => (sum.1 + n * unit, sum.2)
  | q =>
    let part := Quantity.fractional (.ofFloat (Float.ofInt unit * q.fraction))
    (sum.1 + q.truncated * unit + part.truncated, sum.2 + part.fraction)

/-- Whole microseconds with a rest, to the nearer one; a half goes to the even one. -/
def rounded (sum : Int × Float) : Int :=
  let rest := Quantity.fractional (.ofFloat sum.2)
  RoundingMode.halfEven.roundTo (sum.1 * rest.denominator + rest.numerator) rest.denominator
    / rest.denominator

/-- A span of numbers of days, seconds and microseconds. Each may have a fraction. -/
def ofQuantities (days seconds micros : Quantity) : MicroSpan :=
  ofMicros (rounded (addUnits microsPerDay days (addUnits microsPerSecond seconds
    (addUnits 1 micros (0, 0)))))

def totalMicros (s : MicroSpan) : Int :=
  s.days * microsPerDay + s.seconds * microsPerSecond + s.micros

theorem totalMicros_ofMicros (n : Int) : (ofMicros n).totalMicros = n := by
  simp only [ofMicros, totalMicros, microsPerDay, microsPerSecond]
  omega

/-- Days if there are any, then hours, minutes and seconds, and microseconds if there are any. -/
def text (s : MicroSpan) : String :=
  let seconds := s.seconds.toNat
  let plural := if s.days.natAbs = 1 then "" else "s"
  let days := if s.days = 0 then "" else s!"{Text.integer s.days} day{plural}, "
  let clock := Text.decimal (seconds / 3600) ++ ':' :: Text.fixed 2 (seconds % 3600 / 60) ++ ':' ::
    Text.fixed 2 (seconds % 60)
  let micros := if s.micros = 0 then [] else '.' :: Text.fixed 6 s.micros.toNat
  days ++ String.ofList (clock ++ micros)

/-- A span as a call that lists its parts that are not zero. -/
def display (s : MicroSpan) : String :=
  let parts := [("days", s.days), ("seconds", s.seconds), ("microseconds", s.micros)].filterMap
    fun (name, n) => if n = 0 then none else some s!"{name}={Text.integer n}"
  let inner := if parts.isEmpty then "0" else ", ".intercalate parts
  s!"datetime.timedelta({inner})"

end MicroSpan

/-! Dates and clocks that count microseconds check their fields themselves. -/

def YearMonthDay.checkMicros (d : YearMonthDay) : Except MicroFault Unit :=
  if d.year < Calendar.firstYear ∨ Calendar.lastYear < d.year then .error (.year d.year)
  else if d.month < 1 ∨ 12 < d.month then .error .month
  else if d.day < 1 ∨ Calendar.monthLength d.year d.month < d.day then .error .day
  else .ok ()

def MicroTime.check (t : MicroTime) : Except MicroFault Unit :=
  if t.hour < 0 ∨ 23 < t.hour then .error (.clock .hour)
  else if t.minute < 0 ∨ 59 < t.minute then .error (.clock .minute)
  else if t.second < 0 ∨ 59 < t.second then .error (.clock .second)
  else if t.micros < 0 ∨ 999999 < t.micros then .error (.clock .nanosecond)
  else .ok ()

/-- An offset is less than a day either way. -/
def MicroSpan.checkOffset (s : MicroSpan) : Except MicroFault Unit :=
  if -microsPerDay < s.totalMicros ∧ s.totalMicros < microsPerDay then .ok ()
  else .error (.offset s.display)

/-- The offset is judged first, then the date, then the time. -/
def MicroDateTime.check (x : MicroDateTime) : Except MicroFault Unit := do
  match x.offsetMicros with
  | none => pure ()
  | some n => (MicroSpan.ofMicros n).checkOffset
  x.date.checkMicros
  x.time.check

def TimeOfDay.toMicros (t : TimeOfDay) : MicroTime :=
  { hour := t.hour, minute := t.minute, second := t.second, micros := t.microsecond }

/-- A clock with an offset shows no plain time of day. -/
def TimeOfDay.ofMicros (t : MicroTime) (hasOffset : Bool) : Except Fault TimeOfDay :=
  if hasOffset then .error .offsetOnTime
  else
    TimeOfDay.ofClock t.hour t.minute t.second (t.micros * nanosPerMicrosecond)

namespace Duration

/-- Drops what is finer than a microsecond, towards zero. The duration has to be exact. -/
def toMicros (d : Duration) : Except Fault MicroSpan :=
  if d.isExact then .ok (MicroSpan.ofMicros (d.nanos.tdiv nanosPerMicrosecond))
  else .error (.datePartForSpan d)

def ofMicros (s : MicroSpan) : Except Fault Duration :=
  ofNanos (s.totalMicros * nanosPerMicrosecond)

end Duration

def LocalDateTime.toMicros (l : LocalDateTime) (offset : Option Offset) (name : Option String) :
    MicroDateTime :=
  { date := l.date.ymd
    time := l.time.toMicros
    offsetMicros := offset.map fun o => o.seconds * MicroSpan.microsPerSecond
    name }

namespace Value

/-- The reading of a value with its offset, if it has one. Only a zone names it, unless the name is
empty. -/
def toMicros : Value → Except Error MicroDateTime
  | localDateTime l => .ok (l.toMicros none none)
  | offsetDateTime x => .ok (x.wall.toMicros (some x.offset) none)
  | zonedDateTime z =>
    let name := z.period.abbreviation
    .ok (z.wall.toMicros (some z.offset) (if name = "" then none else some name))
  | instant i => .ok (i.utcReading.toMicros (some Offset.utc) none)
  | v => .error (.expectedDateTime v.typeName)

/-- A reading, or with an offset of whole seconds a reading at that offset. -/
def ofMicros (x : MicroDateTime) : Except Fault Value := do
  let date ← Date.ofYmd x.date.year x.date.month x.date.day
  let time ← TimeOfDay.ofMicros x.time false
  let wall : LocalDateTime := ⟨date, time⟩
  match x.offsetMicros with
  | none => return localDateTime wall
  | some micros =>
    let span := MicroSpan.ofMicros micros
    if span.micros ≠ 0 then throw (.offsetWithMicroseconds span.text)
    else do
      let offset ← Offset.ofSeconds (span.days * secondsPerDay + span.seconds)
      return offsetDateTime (← OffsetDateTime.of wall offset)

end Value

end CivilTime
