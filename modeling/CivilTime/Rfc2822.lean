/- Timestamps of RFC 2822 with a day of the week, whole seconds and a numeric offset of whole minutes. -/
import CivilTime.Iso8601.Reader
import CivilTime.OffsetDateTime.Operations

namespace CivilTime

namespace Rfc2822

open Text (Reader fixed)
open Text.Reader Iso8601

def monthNames : List (List Char) :=
  ["Jan", "Feb", "Mar", "Apr", "May", "Jun", "Jul", "Aug", "Sep", "Oct", "Nov", "Dec"].map
    String.toList

def weekdayNames : List (List Char) := Weekday.all.map fun w => w.shortName.toList

/-- Takes one of the names, all of three characters, and gives its place in the list. -/
def readName (names : List (List Char)) (field : String) : Reader Nat := fun rest =>
  match names.findIdx? (· == rest.take 3) with
  | some i => .ok (i, rest.drop 3)
  | none => .error ⟨.expectedName field, rest⟩

/-- Hours and minutes of an offset, without a separator. -/
def readOffset : Reader (Bool × Nat × Nat) := do
  let negative ← readSign .expectedOffsetSign
  let hours ← digits 2 "offset hours"
  let minutes ← digits 2 "offset minutes"
  return (negative, hours, minutes)

/-- The whole timestamp. Nothing is judged before its end is reached; then come the offset fields, the
date and time, the day of the week, and the instant. -/
def readTimestamp : Reader OffsetDateTime := do
  let weekday ← readName weekdayNames "weekday"
  expect [',', ' ']
  let day ← digits 2 "day"
  expect [' ']
  let month ← readName monthNames "month"
  expect [' ']
  let year ← digits 4 "year"
  expect [' ']
  let hour ← digits 2 "hour"
  expect [':']
  let minute ← digits 2 "minute"
  expect [':']
  let second ← digits 2 "second"
  expect [' ']
  let (negative, hours, minutes) ← readOffset
  finish
  if 23 < hours ∨ 59 < minutes then stop .offsetFieldRange
  let wall ← build (localOf (year, month + 1, day) (hour, minute, second, 0))
  let claimed := Weekday.all[weekday]?.getD .monday
  if wall.date.weekday ≠ claimed then stop (.wrongWeekday wall.date claimed)
  let size : Int := hours * secondsPerHour + minutes * secondsPerMinute
  let offset ← build (Offset.ofSeconds (if negative then -size else size))
  build (OffsetDateTime.of wall offset)

/-- The text of a value that has whole seconds and an offset of whole minutes. -/
def chars (x : OffsetDateTime) : List Char :=
  let size := x.offset.seconds.natAbs / 60
  x.wall.date.weekday.shortName.toList ++ ',' :: ' ' :: fixed 2 x.wall.day.toNat ++ ' ' ::
    monthNames[(x.wall.month - 1).toNat]?.getD [] ++ ' ' :: fixed 4 x.wall.year.toNat ++ ' ' ::
    fixed 2 x.wall.hour.toNat ++ ':' :: fixed 2 x.wall.minute.toNat ++ ':' ::
    fixed 2 x.wall.second.toNat ++ ' ' :: (if x.offset.seconds < 0 then '-' else '+') ::
    fixed 2 (size / 60) ++ fixed 2 (size % 60)

end Rfc2822

namespace OffsetDateTime

def parseRfc2822 (text : String) : Except Error OffsetDateTime :=
  Text.Reader.read .rfc2822 Rfc2822.readTimestamp text

/-- Fractions of a second are refused before seconds of the offset. -/
def formatRfc2822 (x : OffsetDateTime) : Except Error String :=
  if x.wall.nanosecond ≠ 0 then .error (.fractionInRfc2822 x)
  else if x.offset.seconds % 60 ≠ 0 then .error (.offsetSecondsInRfc2822 x)
  else .ok (String.ofList (Rfc2822.chars x))

end OffsetDateTime

end CivilTime
