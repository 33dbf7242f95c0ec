/- Values as records with a type and a text. -/
import CivilTime.Value.Iso8601

namespace CivilTime.Value

/-- A duration also lists its components; nothing reads them back. -/
def toRecord : Value → Except Error Datum
  | unchecked d => .error (.expectedValue d.kindName)
  | duration d truth =>
    .ok (.record [("_type", .text "Duration"), ("value", .text d.text), ("months", .int d.months),
      ("days", .int d.days), ("nanoseconds", shownNanos d truth)])
  | v => .ok (.record [("_type", .text v.typeName), ("value", .text v.text)])

/-- The value of a type with the given text. -/
def parseAs (kind : ValueKind) (text : String) (r : Option Resolver) : Except Error Value :=
  match kind with
  | .date => date <$> Date.parse text
  | .time => time <$> TimeOfDay.parse text
  | .localDateTime => localDateTime <$> LocalDateTime.parse text
  | .instant => instant <$> Instant.parse text
  | .offset => offset <$> Offset.parse text
  | .offsetDateTime => offsetDateTime <$> OffsetDateTime.parse text
  | .zonedDateTime =>
    match r with
    | none => .error .resolverNeededForRecord
    | some r => zonedDateTime <$> ZonedDateTime.parse text r
  | .duration => ofDuration <$> Duration.parse text

/-- A record needs a type and a text that are not empty; then the type has to be known. -/
def ofRecord (record : Datum) (r : Option Resolver) : Except Error Value :=
  match record with
  | .record _ =>
    match record.field? "_type" with
    | none => .error .recordWithoutType
    | some type =>
      if type.isGiven then
        match (record.field? "value").bind Datum.text? with
        | none => .error (.recordWithoutValue type)
        | some text =>
          if text = "" then .error (.recordWithoutValue type)
          else
            match type.text?.bind ValueKind.ofName? with
            | none => .error (.unknownRecordType type)
            | some kind => parseAs kind text r
      else .error .recordWithoutType
  | d => .error (.notRecord d)

end CivilTime.Value
