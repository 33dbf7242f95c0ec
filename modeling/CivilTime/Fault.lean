/- Why a value is refused. Each cause has one wording, given by `Fault.message`. -/
import CivilTime.Datum.Display
import CivilTime.Iso8601.Writer
import CivilTime.Rounding.Basic

namespace CivilTime

/-- What kind of error a caller sees. -/
inductive ErrorKind where
  | validation | invalidDate | invalidTime | invalidFormat | rangeOverflow
  | timezone | ambiguousTime | skippedTime | unknownZone
  | unfitType | unfitValue
  deriving DecidableEq, Repr

/-- The kind that a caller sees of an error that names integers. Where one has too many digits to be
written out, the complaint about that comes in place of the error. -/
def ErrorKind.naming (kind : ErrorKind) (shown : List Int) : ErrorKind :=
  if ∀ n ∈ shown, Text.Writable n then kind else .unfitValue

inductive DateField where
  | year | month | day | dayNumber
  deriving DecidableEq, Repr

def DateField.name : DateField → String
  | year => "year"
  | month => "month"
  | day => "day"
  | dayNumber => "julian day"

inductive ClockField where
  | hour | minute | second | nanosecond
  deriving DecidableEq, Repr

namespace ClockField

def name : ClockField → String
  | hour => "hour"
  | minute => "minute"
  | second => "second"
  | nanosecond => "nanosecond"

def highest : ClockField → Int
  | hour => 23
  | minute => 59
  | second => 59
  | nanosecond => 999999999

end ClockField

/-- What is wrong with one entry of a zone table. -/
inductive EntryFault where
  | offsetNotInteger (found : Datum)
  | offsetRange (seconds : Int)
  | timeNotInteger (found : Datum)
  | abbreviationNotText (found : Datum)

def EntryFault.message : EntryFault → String
  | offsetNotInteger d => s!"zone offset must be an integer, got {d.display}"
  | offsetRange n => s!"zone offset out of range: {Text.integer n} seconds"
  | timeNotInteger d => s!"transition time must be an integer, got {d.display}"
  | abbreviationNotText d => s!"zone abbreviation must be a string, got {d.display}"

/-- The integers that the wording writes out. -/
def EntryFault.shown : EntryFault → List Int
  | offsetNotInteger d | timeNotInteger d | abbreviationNotText d => d.integers
  | offsetRange n => [n]

/-- What is wrong with the description of a zone. -/
inductive TableFault where
  | noInitial
  | entry (fault : EntryFault)
  /-- A part that is not of the form of a table, of a list, or of an entry. -/
  | shape

inductive Fault where
  | dateFieldNotInteger (field : DateField) (found : Datum)
  | yearRange (year : Int)
  | monthRange (month : Int)
  | dayRange (year month day : Int)
  | dayNumberRange (dayNumber : Int)
  | clockFieldNotInteger (field : ClockField) (found : Datum)
  | clockFieldRange (field : ClockField) (value : Int)
  | dayNanosNotInteger (found : Datum)
  | dayNanosRange (nanos : Int)
  | yearOverflow (year : Int)
  | dateOverflow
  | readingOverflow
  | instantOverflow (nanos : Int)
  | timeOverflow (time : TimeOfDay) (duration : Duration)
  | monthsOverflow (months : Int)
  | daysOverflow (days : Int)
  | nanosOverflow (nanos : Int)
  | durationFieldNotInteger (field : String) (found : Datum)
  | mixedSigns
  | datePartForTime (duration : Duration)
  | timePartForDate (duration : Duration)
  | offsetForDate (offset : Offset)
  | datePartForInstant (duration : Duration)
  | datePartForSpan (duration : Duration)
  | instantNotInteger (found : Datum)
  | offsetNotInteger (found : Datum)
  | offsetRange (seconds : Int)
  | offsetMinutes (found : Datum)
  | offsetSeconds (found : Datum)
  | incrementNotInteger (found : Datum)
  | increment (unit : TimeUnit) (increment : Int)
  | zoneEntry (fault : EntryFault)
  | zoneTable (name : Datum) (fault : TableFault)
  | duplicateZone (name : Datum)
  | offsetOnTime
  | offsetWithMicroseconds (text : String)

namespace Fault

/-- The kind of error that is raised, if its wording can be written out. -/
def kind : Fault → ErrorKind
  | dateFieldNotInteger .. | yearRange .. | monthRange .. | dayRange .. | dayNumberRange .. =>
    .invalidDate
  | clockFieldNotInteger .. | clockFieldRange .. | dayNanosNotInteger .. | dayNanosRange .. =>
    .invalidTime
  | yearOverflow .. | dateOverflow | readingOverflow | instantOverflow .. | timeOverflow ..
  | monthsOverflow .. | daysOverflow .. | nanosOverflow .. => .rangeOverflow
  | durationFieldNotInteger .. | mixedSigns | datePartForTime .. | timePartForDate ..
  | offsetForDate .. | datePartForInstant .. | datePartForSpan .. | instantNotInteger .. | offsetNotInteger ..
  | offsetRange .. | offsetMinutes .. | offsetSeconds .. | incrementNotInteger .. | increment ..
  | zoneEntry .. | zoneTable .. | duplicateZone .. | offsetOnTime
  | offsetWithMicroseconds .. => .validation

/-- The wording, if the cause has one. A table of the wrong shape has none. -/
def message? : Fault → Option String
  | dateFieldNotInteger field d => some s!"{field.name} must be an integer, got {d.kindName}"
  | yearRange n => some s!"year must be between 1 and 9999, got {Text.integer n}"
  | monthRange n => some s!"month must be between 1 and 12, got {Text.integer n}"
  | dayRange year month day =>
    let last := Text.integer (Calendar.monthLength year month)
    let monthText := String.ofList (Text.fixed 4 year.toNat ++ '-' :: Text.fixed 2 month.toNat)
    some s!"day must be between 1 and {last} for {monthText}, got {Text.integer day}"
  | dayNumberRange n =>
    let first := Text.integer Calendar.firstDay
    let last := Text.integer Calendar.lastDay
    some s!"julian day must be between {first} and {last}, got {Text.integer n}"
  | clockFieldNotInteger field d => some s!"{field.name} must be an integer, got {d.kindName}"
  | clockFieldRange field n =>
    some s!"{field.name} must be between 0 and {Text.integer field.highest}, got {Text.integer n}"
  | dayNanosNotInteger d => some s!"nanoseconds must be an integer, got {d.display}"
  | dayNanosRange n => some s!"nanoseconds of day out of range: {Text.integer n}"
  | yearOverflow n => some s!"year {Text.integer n} is out of range"
  | dateOverflow => some "date is out of range"
  | readingOverflow => some "local date-time is out of range"
  | instantOverflow n => some s!"instant out of range: {Text.integer n} ns since epoch"
  | timeOverflow t d => some s!"time of day out of range: {t.text} + {d.text}"
  | monthsOverflow n => some s!"duration months out of range: {Text.integer n}"
  | daysOverflow n => some s!"duration days out of range: {Text.integer n}"
  | nanosOverflow n => some s!"duration time part out of range: {Text.integer n} ns"
  | durationFieldNotInteger field d => some s!"{field} must be an integer, got {d.display}"
  | mixedSigns => some "duration components must share one sign"
  | datePartForTime d => some s!"cannot add a duration with a date part to a Time: {d.text}"
  | timePartForDate d => some s!"cannot add a duration with a time part to a Date: {d.text}"
  | offsetForDate o => some s!"cannot add a duration with a time part to a Date: {o.text}"
  | datePartForInstant d => some s!"cannot add a duration with a date part to an Instant: {d.text}"
  | datePartForSpan d => some s!"cannot convert {d.text} to timedelta: it has a date part"
  | instantNotInteger d => some s!"nanoseconds must be an integer, got {d.kindName}"
  | offsetNotInteger d => some s!"offset seconds must be an integer, got {d.kindName}"
  | offsetRange n =>
    some s!"offset must be strictly within +/-24 hours, got {Text.integer n} seconds"
  | offsetMinutes d => some s!"minutes must be 0-59, got {d.display}"
  | offsetSeconds d => some s!"seconds must be 0-59, got {d.display}"
  | incrementNotInteger d => some s!"increment must be an integer, got {d.kindName}"
  | increment .day n => some s!"increment for days must be 1, got {Text.integer n}"
  | increment unit n =>
    some s!"increment for {unit.name}s must divide {Text.integer unit.limit}, got {Text.integer n}"
  | zoneEntry fault => some fault.message
  | zoneTable name .noInitial => some s!"malformed rules for zone {name.display}: 'initial'"
  | zoneTable name (.entry fault) => some s!"malformed rules for zone {name.display}: {fault.message}"
  | zoneTable _ .shape => none
  | duplicateZone name => some s!"duplicate zone {name.display} in rule set"
  | offsetOnTime => some "cannot convert an aware datetime.time to Time"
  | offsetWithMicroseconds text => some s!"offset {text} has a sub-second component"

/-- The integers that the wording writes out, those in parts that are shown included. -/
def shown : Fault → List Int
  | yearRange n | monthRange n | dayNumberRange n | clockFieldRange _ n | dayNanosRange n
  | yearOverflow n | instantOverflow n | monthsOverflow n | daysOverflow n | nanosOverflow n
  | offsetRange n | increment _ n => [n]
  | dayRange year month day => [year, month, day]
  | dayNanosNotInteger d | durationFieldNotInteger _ d | offsetMinutes d | offsetSeconds d => d.integers
  | zoneEntry fault => fault.shown
  | zoneTable name (.entry fault) => name.integers ++ fault.shown
  | zoneTable name _ | duplicateZone name => name.integers
  | dateFieldNotInteger .. | clockFieldNotInteger .. | dateOverflow | readingOverflow
  | timeOverflow .. | mixedSigns | datePartForTime .. | timePartForDate .. | offsetForDate ..
  | datePartForInstant .. | datePartForSpan .. | instantNotInteger .. | offsetNotInteger ..
  | incrementNotInteger .. | offsetOnTime | offsetWithMicroseconds .. => []

end Fault

end CivilTime
