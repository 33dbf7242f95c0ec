/- ISO 8601 text of any value, and reading a text of any of its forms by its shape. -/
import CivilTime.Iso8601.DurationReader
import CivilTime.Rfc2822
import CivilTime.Rfc3339
import CivilTime.Value.Basic

namespace CivilTime.Value

/-- The canonical text, for the types of the library. -/
def formatIso8601 : Value → Except Error String
  | unchecked d => .error (.cannotFormat d.kindName)
  | v => .ok v.text

def formatRfc3339 : Value → Except Error String
  | offsetDateTime x => .ok x.text
  | v => .error (.expectedOffsetDateTime v.typeName)

def formatRfc2822 : Value → Except Error String
  | offsetDateTime x => x.formatRfc2822
  | v => .error (.expectedOffsetDateTime v.typeName)

/-- Forms of text, told apart by their shapes. -/
inductive Shape where
  | duration | zoned | timestamp | localDateTime | time | date
  deriving DecidableEq, Repr

/-- A duration starts with `P`, a zoned text ends with a bracket, and a `T` stands between date and time.
What follows the `T` has an offset if it ends with `Z` or holds a sign. A time has a colon behind two
characters. -/
def shape (cs : List Char) : Shape :=
  if ['P'].isPrefixOf cs ∨ ['-', 'P'].isPrefixOf cs then .duration
  else if cs.getLast? = some ']' then .zoned
  else if 'T' ∈ cs then
    let tail := (cs.dropWhile (· != 'T')).tail
    if tail.getLast? = some 'Z' ∨ '+' ∈ tail ∨ '-' ∈ tail then .timestamp else .localDateTime
  else if cs[2]? = some ':' then .time
  else .date

/-- Reads a text by its shape. A zoned text needs a resolver. -/
def parseIso8601 (text : String) (r : Option Resolver) : Except Error Value :=
  match shape text.toList with
  | .duration => ofDuration <$> Duration.parse text
  | .zoned =>
    match r with
    | none => .error (.resolverNeeded text)
    | some r => zonedDateTime <$> ZonedDateTime.parse text r
  | .timestamp => offsetDateTime <$> OffsetDateTime.parse text
  | .localDateTime => localDateTime <$> LocalDateTime.parse text
  | .time => time <$> TimeOfDay.parse text
  | .date => date <$> Date.parse text

end CivilTime.Value
