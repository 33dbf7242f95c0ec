/- Checked instants, and arithmetic on the time line. -/
import CivilTime.Duration.Operations

namespace CivilTime.Instant

def ofNanos (nanos : Int) : Except Fault Instant :=
  match ofNanos? nanos with
  | some i => .ok i
  | none => .error (.instantOverflow nanos)

theorem ofNanos_eq_ok {n : Int} {i : Instant} : ofNanos n = .ok i ↔ i.nanos = n := by
  rw [← ofNanos?_eq_some, ofNanos]
  cases ofNanos? n <;> simp

def ofDatum (nanos : Datum) : Except Fault Instant :=
  match nanos.int? with
  | none => .error (.instantNotInteger nanos)
  | some n => ofNanos n

def addNanos (i : Instant) (nanos : Int) : Except Fault Instant := ofNanos (i.nanos + nanos)

/-- A number with a fraction leads to no instant, but the range is judged first. -/
def addNanosOf (i : Instant) (nanos : Datum) : Except Error Instant :=
  match nanos.quantity? with
  | none => .error .unsupported
  | some q =>
    match (Quantity.whole i.nanos).add q with
    | .whole n => (ofNanos n).mapError .fault
    | moved =>
      if moved.isBelow firstNanos ∨ moved.isAbove lastNanos then
        .error (.fractionalInstant moved.toDatum)
      else .error (.fault (.dateFieldNotInteger .dayNumber moved.toDatum))

theorem addNanosOf_int (i : Instant) (n : Int) :
    i.addNanosOf (.int n) = (i.addNanos n).mapError .fault := rfl

/-- Only an exact duration can be added to an instant. -/
def add (i : Instant) (d : Duration) : Except Fault Instant :=
  if d.hasDatePart then .error (.datePartForInstant d) else i.addNanos d.nanos

def subtract (i : Instant) (d : Duration) : Except Fault Instant := i.add (-d)

/-- Nanoseconds from `b` to `a`. -/
def diff (a b : Instant) : Int := a.nanos - b.nanos

end CivilTime.Instant
