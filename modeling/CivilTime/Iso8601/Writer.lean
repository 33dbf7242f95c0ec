/- The canonical texts of calendar and clock values, in the extended form of ISO 8601. -/
import CivilTime.Text.Digits
import CivilTime.OffsetDateTime.Basic
import CivilTime.Duration.Basic

namespace CivilTime

open Text (fixed fraction)

namespace Date

/-- Year, month and day, as in `2024-02-29`. -/
def chars (d : Date) : List Char :=
  fixed 4 d.year.toNat ++ '-' :: fixed 2 d.month.toNat ++ '-' :: fixed 2 d.day.toNat

def text (d : Date) : String := String.ofList d.chars

end Date

namespace TimeOfDay

/-- Hour, minute and second, with as much of a fraction as is needed. -/
def chars (t : TimeOfDay) : List Char :=
  fixed 2 t.hour.toNat ++ ':' :: fixed 2 t.minute.toNat ++ ':' :: fixed 2 t.second.toNat
    ++ fraction t.nanosecond.toNat

def text (t : TimeOfDay) : String := String.ofList t.chars

end TimeOfDay

namespace LocalDateTime

def chars (l : LocalDateTime) : List Char := l.date.chars ++ 'T' :: l.time.chars

def text (l : LocalDateTime) : String := String.ofList l.chars

end LocalDateTime

namespace Offset

/-- A sign, which is a plus at zero, hours and minutes, and seconds only if there are any. -/
def chars (o : Offset) : List Char :=
  let size := o.seconds.natAbs
  (if o.seconds < 0 then '-' else '+') :: fixed 2 (size / 3600) ++ ':' :: fixed 2 (size % 3600 / 60)
    ++ if size % 60 = 0 then [] else ':' :: fixed 2 (size % 60)

def text (o : Offset) : String := String.ofList o.chars

end Offset

namespace Duration

/-- A count and its unit, left out if there is nothing to count. -/
def unitChars (n : Nat) (unit : Char) : List Char :=
  if n = 0 then [] else Text.decimal n ++ [unit]

/-- Whole seconds and their fraction, left out if both are zero. -/
def secondChars (seconds nanos : Nat) : List Char :=
  if seconds = 0 ∧ nanos = 0 then [] else Text.decimal seconds ++ fraction nanos ++ ['S']

/-- Months as years and months, the exact part as hours, minutes and seconds. One sign stands before
the whole, and the empty duration is zero seconds. -/
def chars (d : Duration) : List Char :=
  if d.isZero then "PT0S".toList
  else
    let months := d.months.natAbs
    let nanos := d.nanos.natAbs
    (if d.isNegative then ['-', 'P'] else ['P'])
      ++ unitChars (months / 12) 'Y' ++ unitChars (months % 12) 'M' ++ unitChars d.days.natAbs 'D'
      ++ if nanos = 0 then [] else
        'T' :: unitChars (nanos / 3600000000000) 'H'
          ++ unitChars (nanos % 3600000000000 / 60000000000) 'M'
          ++ secondChars (nanos % 60000000000 / 1000000000) (nanos % 1000000000)

def text (d : Duration) : String := String.ofList d.chars

end Duration

namespace OffsetDateTime

/-- The reading and its offset, where offset zero is written `Z`. -/
def chars (x : OffsetDateTime) : List Char :=
  x.wall.chars ++ if x.offset.isUtc then ['Z'] else x.offset.chars

def text (x : OffsetDateTime) : String := String.ofList x.chars

end OffsetDateTime

namespace Instant

/-- An instant is written as read at offset zero. -/
def chars (i : Instant) : List Char := i.atUtc.chars

def text (i : Instant) : String := String.ofList i.chars

end Instant

end CivilTime
