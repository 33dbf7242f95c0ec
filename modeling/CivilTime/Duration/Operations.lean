/- Building durations from their parts, and arithmetic on them component by component. -/
import CivilTime.Datum.Quantity
import CivilTime.Error

namespace CivilTime

namespace Duration

/-- Signs are judged before sizes, months before days before nanoseconds. -/
def ofParts (months days nanos : Int) : Except Fault Duration :=
  if hs : OneSign months days nanos then
    if hm : -maxMonths ≤ months ∧ months ≤ maxMonths then
      if hd : -maxDays ≤ days ∧ days ≤ maxDays then
        if hn : -maxNanos ≤ nanos ∧ nanos ≤ maxNanos then
          .ok ⟨months, days, nanos, hs, hm, hd, hn⟩
        else .error (.nanosOverflow nanos)
      else .error (.daysOverflow days)
    else .error (.monthsOverflow months)
  else .error .mixedSigns

theorem ofParts_eq_ok {m d n : Int} {r : Duration} :
    ofParts m d n = .ok r ↔ r.months = m ∧ r.days = d ∧ r.nanos = n := by
  constructor
  · intro h
    unfold ofParts at h
    repeat' split at h
    all_goals cases h
    exact ⟨rfl, rfl, rfl⟩
  · rintro ⟨rfl, rfl, rfl⟩
    obtain ⟨hm, hd, hn⟩ := r.bounded
    simp only [ofParts, dif_pos r.oneSign, dif_pos hm, dif_pos hd, dif_pos hn]

/-- The parts of a duration build it again. -/
theorem ofParts_parts (d : Duration) : ofParts d.months d.days d.nanos = .ok d :=
  ofParts_eq_ok.mpr ⟨rfl, rfl, rfl⟩

def ofNanos (nanos : Int) : Except Fault Duration := ofParts 0 0 nanos

def add (a b : Duration) : Except Fault Duration :=
  ofParts (a.months + b.months) (a.days + b.days) (a.nanos + b.nanos)

def sub (a b : Duration) : Except Fault Duration := a.add (-b)

def scale (d : Duration) (k : Int) : Except Fault Duration :=
  ofParts (d.months * k) (d.days * k) (d.nanos * k)

/-- The ten counts from which a duration can be built. -/
structure Fields where
  years : Datum := .int 0
  months : Datum := .int 0
  weeks : Datum := .int 0
  days : Datum := .int 0
  hours : Datum := .int 0
  minutes : Datum := .int 0
  seconds : Datum := .int 0
  milliseconds : Datum := .int 0
  microseconds : Datum := .int 0
  nanoseconds : Datum := .int 0

namespace Fields

/-- The fields that count clock time, with their names and their units in nanoseconds. -/
def clock (f : Fields) : List (String × Datum × Int) :=
  [("hours", f.hours, nanosPerHour), ("minutes", f.minutes, nanosPerMinute),
    ("seconds", f.seconds, nanosPerSecond), ("milliseconds", f.milliseconds, nanosPerMillisecond),
    ("microseconds", f.microseconds, nanosPerMicrosecond), ("nanoseconds", f.nanoseconds, 1)]

def all (f : Fields) : List Datum :=
  [f.years, f.months, f.weeks, f.days] ++ f.clock.map (·.2.1)

/-- The first clock field that is given and is no integer is refused. -/
def checkClock : List (String × Datum × Int) → Except Fault Unit
  | [] => .ok ()
  | (name, d, _) :: r =>
    if d.isGiven && d.int?.isNone then .error (.durationFieldNotInteger name d) else checkClock r

/-- Some number has the property. Values after it are not looked at; one before it that is no number
cannot be compared. -/
def someQuantity (p : Quantity → Bool) : List Datum → Except Error Bool
  | [] => .ok false
  | d :: r =>
    match d.quantity? with
    | none => .error .unsupported
    | some q => if p q then .ok true else someQuantity p r

def quantity (d : Datum) : Except Error Quantity :=
  match d.quantity? with
  | none => .error .unsupported
  | some q => .ok q

/-- A total of date fields has to be whole. -/
def total (name : String) (q : Quantity) : Except Fault Int :=
  match q with
  | .whole n => .ok n
  | .fractional _ => .error (.durationFieldNotInteger name q.toDatum)

/-- Adds the nanoseconds of clock fields to a sum. A field that counts as not given may still be a zero with
a fraction, and then the sum is a number with a fraction too. -/
def addClock (sum : Quantity) : List (String × Datum × Int) → Except Error Quantity
  | [] => .ok sum
  | (_, d, unit) :: r => do addClock (sum.add ((← quantity d).scale unit)) r

end Fields

/-- What the constructor makes: a duration, or one whose nanoseconds are a number with a fraction, such
as a zero that was written with one. -/
inductive Made where
  | whole (d : Duration)
  | fractional (months days : Int) (nanos : Text.Binary64)

/-- Nanoseconds with a fraction are judged like whole ones. -/
def make (months days : Int) (nanos : Quantity) : Except Error Made :=
  match nanos with
  | .whole n => do return .whole (← ofParts months days n)
  | .fractional x => do
    let positive := 0 < months ∨ 0 < days ∨ nanos.isPositive
    let negative := months < 0 ∨ days < 0 ∨ nanos.isNegative
    if positive ∧ negative then throw (.fault .mixedSigns)
    let _ ← ofParts months days 0
    if nanos.isBelow (-maxNanos) ∨ nanos.isAbove maxNanos then throw (.fractionalSpan nanos.toDatum)
    return .fractional months days x

/-- The values here count whole nanoseconds, so a duration that does not is left out. The complaint is the one
that seconds with a fraction meet where such a duration is shown. -/
def Made.duration : Made → Except Error Duration
  | .whole d => .ok d
  | .fractional .. => .error .fractionalDuration

/-- Years count twelve months, weeks seven days, and clock fields their nanoseconds. The fields have to
share one sign even where their totals would. -/
def makeOfFields (f : Fields) : Except Error Made := do
  let _ ← Fields.checkClock f.clock
  if ← Fields.someQuantity Quantity.isPositive f.all then
    if ← Fields.someQuantity Quantity.isNegative f.all then
      throw (.fault .mixedSigns)
  let years ← Fields.quantity f.years
  let months ← Fields.quantity f.months
  let weeks ← Fields.quantity f.weeks
  let days ← Fields.quantity f.days
  let nanos ← Fields.addClock (.whole 0) f.clock
  let months ← Fields.total "months" ((years.scale 12).add months)
  let days ← Fields.total "days" ((weeks.scale 7).add days)
  make months days nanos

def ofFields (f : Fields) : Except Error Duration := makeOfFields f >>= Made.duration

/-- Months and days that have to be integers, with nanoseconds that are only reckoned with. Those that are
no number are looked at unless the signs of the others are mixed already. -/
def makeOfPartFields (months days nanos : Datum) : Except Error Made := do
  let months ← integerPart "months" months
  let days ← integerPart "days" days
  match nanos.quantity? with
  | some n => make months days n
  | none => throw (if OneSign months days 0 then .unsupported else .fault .mixedSigns)
where
  integerPart (name : String) (d : Datum) : Except Fault Int :=
    match d.int? with
    | some n => .ok n
    | none => .error (.durationFieldNotInteger name d)

def ofPartFields (months days nanos : Datum) : Except Error Duration :=
  makeOfPartFields months days nanos >>= Made.duration

end Duration

end CivilTime
