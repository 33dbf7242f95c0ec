/- Reading durations: a sign, counts of years, months and days, and after a `T` counts of hours, minutes
and seconds. Units may be left out but not reordered, and only seconds may have a fraction. -/
import CivilTime.Duration.Operations
import CivilTime.Text.Reader

namespace CivilTime

namespace Iso8601

open Text (Reader)
open Text.Reader

/-- A count with its unit, and the nanoseconds of a fraction behind the count. -/
structure Group where
  count : Nat
  fraction : Nat
  unit : Char
  deriving DecidableEq, Repr

/-- Takes the unit of a group, which has to be one of those still to come. -/
def readUnit (units : List Char) (hasFraction : Bool) : Reader Char := fun rest =>
  match rest with
  | [] => .error ⟨.expectedUnit, rest⟩
  | c :: r =>
    if c ∈ units then
      if hasFraction ∧ c ≠ 'S' then .error ⟨.fractionOfUnit, rest⟩ else .ok (c, r)
    else .error ⟨.unexpectedUnit c, rest⟩

/-- Takes a count, where allowed a fraction, and a unit. -/
def readGroup (units : List Char) (fractions : Bool) : Reader Group := do
  let count ← number
  let fraction ← if fractions then fraction? else pure none
  let unit ← readUnit units fraction.isSome
  return { count, fraction := fraction.getD 0, unit }

/-- The units that may follow a given one. -/
def unitsAfter (unit : Char) (units : List Char) : List Char :=
  (units.dropWhile (· != unit)).tail

theorem length_unitsAfter_lt (unit c : Char) (units : List Char) :
    (unitsAfter unit (c :: units)).length < (c :: units).length := by
  have h : ((c :: units).dropWhile (· != unit)).length ≤ (c :: units).length :=
    (List.dropWhile_sublist _).length_le
  simp only [unitsAfter, List.length_tail, List.length_cons] at *
  omega

/-- Takes groups as long as a digit comes next. -/
def readGroups (fractions : Bool) (units : List Char) : Reader (List Group) := do
  if ← atDigit then
    let group ← readGroup units fractions
    match units with
    | [] => return [group]
    | c :: r =>
      let groups ← readGroups fractions (unitsAfter group.unit (c :: r))
      return group :: groups
  else return []
termination_by units.length
decreasing_by exact length_unitsAfter_lt _ _ _

/-- The count of a unit, zero if it was left out. -/
def countOf (unit : Char) (groups : List Group) : Nat :=
  ((groups.find? fun g => g.unit == unit).map Group.count).getD 0

def fractionOf (groups : List Group) : Nat := groups.foldr (fun g n => g.fraction + n) 0

/-- Groups before and after the `T`. There is a group, and there is one after a `T`. -/
def readParts : Reader (List Group × List Group) := do
  let dateGroups ← readGroups false ['Y', 'M', 'D']
  if ← accept ['T'] then
    let timeGroups ← readGroups true ['H', 'M', 'S']
    if timeGroups = [] then stop .expectedTimeUnit else return (dateGroups, timeGroups)
  else if dateGroups = [] then stop .expectedAnyUnit
  else return (dateGroups, [])

/-- The duration of some groups. A minus sign holds for all of them. -/
def durationOf (negative : Bool) (dateGroups timeGroups : List Group) : Except Fault Duration :=
  let sign : Int := if negative then -1 else 1
  let months : Int := countOf 'Y' dateGroups * 12 + countOf 'M' dateGroups
  let nanos : Int := countOf 'H' timeGroups * nanosPerHour + countOf 'M' timeGroups * nanosPerMinute
    + countOf 'S' timeGroups * nanosPerSecond + fractionOf timeGroups
  Duration.ofParts (sign * months) (sign * countOf 'D' dateGroups) (sign * nanos)

end Iso8601

open Iso8601 Text.Reader

def Duration.parse (text : String) : Except Error Duration :=
  Text.Reader.read .duration (do
    let negative ← accept ['-']
    expect ['P']
    let (dateGroups, timeGroups) ← readParts
    finish
    build (durationOf negative dateGroups timeGroups)) text

end CivilTime
