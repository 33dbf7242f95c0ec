/- Timestamps of RFC 3339, and the same with a zone in brackets behind them. -/
import CivilTime.Iso8601.Reader
import CivilTime.OffsetDateTime.Operations
import CivilTime.ZonedDateTime.Basic

namespace CivilTime

namespace Rfc3339

open Text (Reader)
open Text.Reader Iso8601

/-- Date, `T`, time and offset. The values are made as soon as the offset is read, the reading before
the offset. -/
def readTimestamp : Reader OffsetDateTime := do
  let date ← readDate
  expect ['T']
  let time ← readTime
  let seconds ← readOffset
  let wall ← build (localOf date time)
  let offset ← build (Offset.ofSeconds seconds)
  build (OffsetDateTime.of wall offset)

/-- Characters of a zone name in brackets. -/
def isZoneChar (c : Char) : Bool :=
  c.isAlphanum || c == '/' || c == '_' || c == '+' || c == '-'

/-- A timestamp with the name of a zone in brackets. -/
def readZoned : Reader (OffsetDateTime × String) := do
  let value ← readTimestamp
  expect ['[']
  let id ← takeWhile isZoneChar
  if id = [] then stop .expectedZoneId
  else
    expect [']']
    finish
    return (value, String.ofList id)

/-- The complaint that a zoned text is refused as a whole, at its end. -/
def refusedAtEnd (text : String) (f : Fault) : Error :=
  .unreadable .zoned text (.refused f) text.toList.length

end Rfc3339

open Rfc3339 Text.Reader

def OffsetDateTime.parse (text : String) : Except Error OffsetDateTime :=
  Text.Reader.read .rfc3339 (do
    let value ← readTimestamp
    finish
    return value) text

def Instant.parse (text : String) : Except Error Instant :=
  OffsetDateTime.toInstant <$> OffsetDateTime.parse text

/-- The offset of the text has to be the one that the zone has at the instant. -/
def ZonedDateTime.parse (text : String) (r : Resolver) : Except Error ZonedDateTime := do
  let (value, id) ← Text.Reader.read .zoned readZoned text
  match ZonedDateTime.ofInstant value.toInstant id r with
  | .error (.fault f) => throw (refusedAtEnd text f)
  | .error e => throw e
  | .ok z =>
    if z.offset = value.offset then return z
    else throw (.offsetMismatch text value.offset id z.offset)

end CivilTime
