/- Changes between the types that are bound to the time line: an instant, its reading at an offset, its reading in
a zone. -/
import CivilTime.Value.Basic

namespace CivilTime

/-- What a value is asked to become. An instant is read at offset zero if no offset is given, and a value in a zone
brings its own resolver. -/
inductive Conversion where
  | toInstant
  | toOffset (offset : Option Offset)
  | toZone (zone : Datum) (resolver : Option Resolver)

namespace Value

/-- The same instant in another form. A value in a zone has one offset of its own, and no other value a resolver. -/
def convert (v : Value) (c : Conversion) : Except Error Value :=
  match v, c with
  | offsetDateTime x, .toInstant => .ok (instant x.toInstant)
  | zonedDateTime x, .toInstant => .ok (instant x.instant)
  | instant x, .toOffset o => do
    let y ← OffsetDateTime.ofInstant x (o.getD Offset.utc)
    return offsetDateTime y
  | offsetDateTime x, .toOffset (some o) => do
    let y ← x.toOffset o
    return offsetDateTime y
  | zonedDateTime x, .toOffset none => .ok (offsetDateTime x.toOffset)
  | instant x, .toZone zone (some r) => do
    let y ← ZonedDateTime.ofInstantNamed x zone r
    return zonedDateTime y
  | offsetDateTime x, .toZone zone (some r) => do
    let y ← ZonedDateTime.ofInstantNamed x.toInstant zone r
    return zonedDateTime y
  | zonedDateTime x, .toZone zone r => do
    let y ← ZonedDateTime.ofInstantNamed x.instant zone (r.getD x.resolver)
    return zonedDateTime y
  | _, _ => .error .unsupported

end Value

end CivilTime
