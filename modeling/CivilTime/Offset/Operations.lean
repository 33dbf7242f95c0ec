/- Checked offsets. -/
import CivilTime.Datum.Quantity
import CivilTime.Error

namespace CivilTime.Offset

/-- Offsets are less than a day either way. -/
def ofSeconds (seconds : Int) : Except Fault Offset :=
  match ofSeconds? seconds with
  | some o => .ok o
  | none => .error (.offsetRange seconds)

def ofDatum (seconds : Datum) : Except Fault Offset :=
  match seconds.int? with
  | none => .error (.offsetNotInteger seconds)
  | some n => ofSeconds n

/-- Minutes or seconds of an hour-minute-second offset: a number from 0 to 59. -/
def sexagesimal (d : Datum) (outside : Datum → Fault) : Except Error Quantity :=
  match d.quantity? with
  | none => .error .unsupported
  | some q =>
    if q.isNegative ∨ (q.add (.whole (-59))).isPositive then .error (.fault (outside d)) else .ok q

/-- The sign of the hours holds for the whole. -/
def ofHours (hours minutes seconds : Datum) : Except Error Offset := do
  let m ← sexagesimal minutes .offsetMinutes
  let s ← sexagesimal seconds .offsetSeconds
  match hours.quantity? with
  | none => throw .unsupported
  | some h =>
    let size := (((if h.isNegative then h.scale (-1) else h).scale 3600).add (m.scale 60)).add s
    ofDatum (if h.isNegative then size.scale (-1) else size).toDatum

end CivilTime.Offset
