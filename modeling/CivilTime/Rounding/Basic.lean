/- Units that a clock time can be rounded to, and the ways to round an integer to a multiple. -/
import CivilTime.Nanos

namespace CivilTime

inductive TimeUnit where
  | nanosecond | microsecond | millisecond | second | minute | hour | day
  deriving DecidableEq, Repr

namespace TimeUnit

def all : List TimeUnit :=
  [nanosecond, microsecond, millisecond, second, minute, hour, day]

def name : TimeUnit → String
  | nanosecond => "nanosecond"
  | microsecond => "microsecond"
  | millisecond => "millisecond"
  | second => "second"
  | minute => "minute"
  | hour => "hour"
  | day => "day"

def nanos : TimeUnit → Int
  | nanosecond => 1
  | microsecond => nanosPerMicrosecond
  | millisecond => nanosPerMillisecond
  | second => nanosPerSecond
  | minute => nanosPerMinute
  | hour => nanosPerHour
  | day => nanosPerDay

/-- How many of the unit make up one of the next larger kind. An increment has to divide it. -/
def limit : TimeUnit → Int
  | nanosecond | microsecond | millisecond => 1000
  | second | minute => 60
  | hour => 24
  | day => 1

/-- Increments that divide the next larger unit, itself excluded. Days come one at a time. -/
def Allows (unit : TimeUnit) (increment : Int) : Prop :=
  match unit with
  | day => increment = 1
  | _ => 1 ≤ increment ∧ increment < unit.limit ∧ unit.limit % increment = 0

instance (unit : TimeUnit) (increment : Int) : Decidable (unit.Allows increment) := by
  unfold Allows
  cases unit <;> infer_instance

end TimeUnit

/-- Rounding to the past, to the future, or to the nearer side with a rule for ties. -/
inductive RoundingMode where
  | floor | ceil | halfFloor | halfCeil | halfEven
  deriving DecidableEq, Repr

namespace RoundingMode

def all : List RoundingMode := [floor, ceil, halfFloor, halfCeil, halfEven]

def name : RoundingMode → String
  | floor => "floor"
  | ceil => "ceil"
  | halfFloor => "half_floor"
  | halfCeil => "half_ceil"
  | halfEven => "half_even"

/-- Whether a remainder past the `quotient`-th multiple of `step` goes on to the next one. A value that
is a multiple already stays where it is. -/
def goesUp (mode : RoundingMode) (quotient remainder step : Int) : Bool :=
  if remainder = 0 then false
  else match mode with
    | floor => false
    | ceil => true
    | halfFloor => decide (step < remainder * 2)
    | halfCeil => decide (step ≤ remainder * 2)
    | halfEven => decide (step < remainder * 2 ∨ (remainder * 2 = step ∧ quotient % 2 = 1))

/-- A multiple of `step` next to `value`. -/
def roundTo (mode : RoundingMode) (value step : Int) : Int :=
  let quotient := Int.fdiv value step
  let remainder := Int.fmod value step
  if mode.goesUp quotient remainder step then (quotient + 1) * step else quotient * step

end RoundingMode

end CivilTime
