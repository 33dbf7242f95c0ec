/- Binary fractions in as few decimal digits as tell them apart from all others of their format. -/
import CivilTime.Text.Digits

namespace CivilTime.Text

/-- A number of the IEEE 754 format with 64 bits, by its bits. -/
structure Binary64 where
  bits : UInt64
  deriving DecidableEq, Repr

namespace Binary64

def ofFloat (x : Float) : Binary64 := ⟨x.toBits⟩

def toFloat (x : Binary64) : Float := Float.ofBits x.bits

def isNegative (x : Binary64) : Bool := x.bits >>> 63 == 1

def exponentBits (x : Binary64) : Nat := (x.bits >>> 52).toNat % 2048

def fractionBits (x : Binary64) : Nat := x.bits.toNat % Nat.pow 2 52

/-- A finite number is plus or minus `significand * 2 ^ exponent`. -/
def significand (x : Binary64) : Nat :=
  if x.exponentBits = 0 then x.fractionBits else x.fractionBits + Nat.pow 2 52

def exponent (x : Binary64) : Int :=
  if x.exponentBits = 0 then -1074 else (x.exponentBits : Int) - 1075

def isZero (x : Binary64) : Bool := x.exponentBits == 0 && x.fractionBits == 0

/-- The interval of numbers that round to a magnitude, in quarters of its last place. -/
structure Rounds where
  lowest : Nat
  value : Nat
  highest : Nat
  closed : Bool

/-- Half a place either way. Below a power of two the next number is only half as far away. Both ends
belong to the interval if the significand is even, as ties go to even. -/
def rounds (x : Binary64) : Rounds :=
  let m := x.significand
  { lowest := 4 * m - if x.fractionBits = 0 ∧ 1 < x.exponentBits then 1 else 2
    value := 4 * m
    highest := 4 * m + 2
    closed := m % 2 == 0 }

/-- The multiple of `10 ^ place` next to the magnitude that lies within its interval, counted in such
multiples; of two the nearer, and the even one if they are equally near. -/
def multiple? (x : Binary64) (place : Int) : Option Nat :=
  let r := x.rounds
  let two := x.exponent - 2
  let up := Nat.pow 2 two.toNat * Nat.pow 10 (-place).toNat
  let down := Nat.pow 2 (-two).toNat * Nat.pow 10 place.toNat
  let inside (k : Nat) : Bool :=
    if r.closed then decide (r.lowest * up ≤ k * down ∧ k * down ≤ r.highest * up)
    else decide (r.lowest * up < k * down ∧ k * down < r.highest * up)
  let k := r.value * up / down
  let below := r.value * up - k * down
  let above := (k + 1) * down - r.value * up
  match inside k, inside (k + 1) with
  | true, true => some (if below < above ∨ (below = above ∧ k % 2 = 0) then k else k + 1)
  | true, false => some k
  | false, true => some (k + 1)
  | false, false => none

/-- Digits and the place of the last one: the highest place at which some multiple rounds to the
number gives the fewest digits. -/
def shortest (x : Binary64) : List Char × Int :=
  ((List.range 640).findSome? fun (i : Nat) =>
    let place := 308 - (i : Int)
    (x.multiple? place).map fun k => (decimal k, place)).getD (['0'], 0)

/-- Positional from one ten-thousandth up to below `10 ^ 16`, where a whole number keeps one zero
after the point; otherwise one digit before the point and an exponent of at least two digits. -/
def text (x : Binary64) : String :=
  let sign := if x.isNegative then "-" else ""
  if x.exponentBits = 2047 then
    if x.fractionBits = 0 then sign ++ "inf" else "nan"
  else if x.isZero then sign ++ "0.0"
  else
    let (digits, place) := x.shortest
    let point := digits.length + place
    let zeros (n : Int) : List Char := List.replicate n.toNat '0'
    let body :=
      if -4 < point ∧ point ≤ 16 then
        if place ≥ 0 then digits ++ zeros place ++ ['.', '0']
        else if point ≤ 0 then '0' :: '.' :: (zeros (-point) ++ digits)
        else digits.take point.toNat ++ '.' :: digits.drop point.toNat
      else
        let lead := match digits with
          | [] => []
          | [d] => [d]
          | d :: r => d :: '.' :: r
        let e := (point - 1).natAbs
        lead ++ 'e' :: (if point - 1 < 0 then '-' else '+') ::
          (if e < 10 then '0' :: decimal e else decimal e)
    sign ++ String.ofList body

end Binary64

end CivilTime.Text
