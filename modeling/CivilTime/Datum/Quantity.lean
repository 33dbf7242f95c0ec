/- Numbers among unchecked values: whole ones and ones with a fraction. Truth values count as zero and
one wherever a number is only reckoned with. -/
import CivilTime.Datum

namespace CivilTime

inductive Quantity where
  | whole (n : Int)
  | fractional (x : Text.Binary64)

namespace Quantity

def toDatum : Quantity → Datum
  | whole n => .int n
  | fractional x => .fractional x

def toFloat : Quantity → Float
  | whole n => Float.ofInt n
  | fractional x => x.toFloat

def isPositive : Quantity → Bool
  | whole n => decide (0 < n)
  | fractional x => !x.isNegative && !x.isZero

def isNegative : Quantity → Bool
  | whole n => decide (n < 0)
  | fractional x => x.isNegative && !x.isZero

/-- A number is a fraction whose denominator is a power of two. -/
def numerator : Quantity → Int
  | whole n => n
  | fractional x => (if x.isNegative then -1 else 1) * (x.significand * Nat.pow 2 x.exponent.toNat : Nat)

def denominator : Quantity → Int
  | whole _ => 1
  | fractional x => Nat.pow 2 (-x.exponent).toNat

/-- The order of two numbers, however large or close to each other they are. -/
def order (a b : Quantity) : Ordering :=
  compare (a.numerator * b.denominator) (b.numerator * a.denominator)

def isBelow (n : Int) (q : Quantity) : Bool := q.order (whole n) == .lt

def isAbove (n : Int) (q : Quantity) : Bool := q.order (whole n) == .gt

theorem isBelow_whole (m n : Int) : (whole n).isBelow m = decide (n < m) := by
  simp only [isBelow, order, numerator, denominator, Int.mul_one]
  by_cases h : n < m
  · simp [h, Int.compare_eq_lt.mpr h]
  · have := mt Int.compare_eq_lt.mp h
    simp [h, this]

theorem isAbove_whole (m n : Int) : (whole n).isAbove m = decide (m < n) := by
  simp only [isAbove, order, numerator, denominator, Int.mul_one]
  by_cases h : m < n
  · simp [h, Int.compare_eq_gt.mpr h]
  · have := mt Int.compare_eq_gt.mp h
    simp [h, this]
/-- A sum is whole if both parts are. -/
def add : Quantity → Quantity → Quantity
  | whole m, whole n => whole (m + n)
  | a, b => fractional (.ofFloat (a.toFloat + b.toFloat))

def sub : Quantity → Quantity → Quantity
  | whole m, whole n => whole (m - n)
  | a, b => fractional (.ofFloat (a.toFloat - b.toFloat))

def mul : Quantity → Quantity → Quantity
  | whole m, whole n => whole (m * n)
  | a, b => fractional (.ofFloat (a.toFloat * b.toFloat))

def scale (k : Int) (q : Quantity) : Quantity := q.mul (whole k)

/-- Division by a positive integer, rounded down. -/
def floorDiv (k : Int) : Quantity → Quantity
  | whole n => whole (n / k)
  | q => fractional (.ofFloat (Float.ofInt (q.numerator / (k * q.denominator))))

/-- What division towards zero by a positive integer leaves over. -/
def remainder (k : Int) (q : Quantity) : Float :=
  Float.scaleB (Float.ofInt (q.numerator.tmod (k * q.denominator))) (-q.denominator.toNat.log2)

/-- What division rounded down leaves over. -/
def floorMod (k : Int) : Quantity → Quantity
  | whole n => whole (n % k)
  | q =>
    let rest := q.remainder k
    fractional (.ofFloat (if rest < 0 then rest + Float.ofInt k else rest))

/-- The number without its fraction. -/
def truncated (q : Quantity) : Int := q.numerator.tdiv q.denominator

/-- The fraction, with the sign of the number. -/
def fraction (q : Quantity) : Float := q.remainder 1

end Quantity

def Datum.quantity? : Datum → Option Quantity
  | .int n => some (.whole n)
  | .bool b => some (.whole (if b then 1 else 0))
  | .fractional x => some (.fractional x)
  | _ => none

theorem Datum.quantity?_int (n : Int) : (Datum.int n).quantity? = some (.whole n) := rfl

end CivilTime
