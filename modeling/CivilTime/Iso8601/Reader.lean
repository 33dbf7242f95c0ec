/- Reading dates, times and offsets in the extended form of ISO 8601. Digits are ASCII digits, and every
field has a fixed width. -/
import CivilTime.LocalDateTime.Operations
import CivilTime.Offset.Operations
import CivilTime.Text.Reader

namespace CivilTime

namespace Iso8601

open Text (Reader)
open Text.Reader

/-- Year, month and day as they are written, not yet judged. -/
def readDate : Reader (Nat × Nat × Nat) := do
  let year ← digits 4 "year"
  expect ['-']
  let month ← digits 2 "month"
  expect ['-']
  let day ← digits 2 "day"
  return (year, month, day)

/-- Hour, minute, second and nanoseconds as they are written, not yet judged. -/
def readTime : Reader (Nat × Nat × Nat × Nat) := do
  let hour ← digits 2 "hour"
  expect [':']
  let minute ← digits 2 "minute"
  expect [':']
  let second ← digits 2 "second"
  let nanosecond ← fraction?
  return (hour, minute, second, nanosecond.getD 0)

/-- Takes a sign, of which a minus gives true. -/
def readSign (problem : Problem) : Reader Bool := do
  if ← accept ['+'] then return false
  else if ← accept ['-'] then return true
  else stop problem

/-- Seconds of an offset: `Z`, or a sign with hours, minutes and perhaps seconds. -/
def readOffset : Reader Int := do
  if ← accept ['Z'] then return 0
  else
    let negative ← readSign .expectedOffset
    let hours ← digits 2 "offset hours"
    expect [':']
    let minutes ← digits 2 "offset minutes"
    let seconds ← do
      if ← accept [':'] then digits 2 "offset seconds" else pure 0
    if 23 < hours ∨ 59 < minutes ∨ 59 < seconds then stop .offsetFieldRange
    else
      let size : Int := hours * secondsPerHour + minutes * secondsPerMinute + seconds
      return if negative then -size else size

def dateOf (fields : Nat × Nat × Nat) : Except Fault Date :=
  Date.ofYmd fields.1 fields.2.1 fields.2.2

def timeOf (fields : Nat × Nat × Nat × Nat) : Except Fault TimeOfDay :=
  TimeOfDay.ofClock fields.1 fields.2.1 fields.2.2.1 fields.2.2.2

/-- The date is judged before the time. -/
def localOf (date : Nat × Nat × Nat) (time : Nat × Nat × Nat × Nat) : Except Fault LocalDateTime := do
  let date ← dateOf date
  let time ← timeOf time
  return ⟨date, time⟩

end Iso8601

open Iso8601 Text.Reader

def Date.parse (text : String) : Except Error Date :=
  Text.Reader.read .date (do
    let fields ← readDate
    finish
    build (dateOf fields)) text

def TimeOfDay.parse (text : String) : Except Error TimeOfDay :=
  Text.Reader.read .time (do
    let fields ← readTime
    finish
    build (timeOf fields)) text

def LocalDateTime.parse (text : String) : Except Error LocalDateTime :=
  Text.Reader.read .localDateTime (do
    let date ← readDate
    expect ['T']
    let time ← readTime
    finish
    build (localOf date time)) text

def Offset.parse (text : String) : Except Error Offset :=
  Text.Reader.read .offset (do
    let seconds ← readOffset
    finish
    build (Offset.ofSeconds seconds)) text

end CivilTime
