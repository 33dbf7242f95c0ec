/- Every way in which an operation of the library ends without a value: a refused value, a text that is
not of the required form, a question that a zone cannot answer, or an operation that a value does not
have. -/
import CivilTime.Fault

namespace CivilTime

/-- Forms of text that can be read. -/
inductive Form where
  | date | time | localDateTime | offset | duration | rfc3339 | zoned | rfc2822
  deriving DecidableEq, Repr

def Form.name : Form → String
  | date => "date"
  | time => "time"
  | localDateTime => "local date-time"
  | offset => "offset"
  | duration => "duration"
  | rfc3339 => "RFC 3339 timestamp"
  | zoned => "zoned date-time"
  | rfc2822 => "RFC 2822 timestamp"

/-- Why reading stops at a place of a text. -/
inductive Problem where
  | expectedLiteral (literal : String)
  | expectedDigits (count : Nat) (field : String)
  | expectedNumber
  | numberTooLong
  | expectedFraction
  | fractionTooLong
  | expectedOffset
  | expectedOffsetSign
  | offsetFieldRange
  | expectedUnit
  | unexpectedUnit (unit : Char)
  | fractionOfUnit
  | expectedTimeUnit
  | expectedAnyUnit
  | expectedZoneId
  | expectedName (field : String)
  | wrongWeekday (date : Date) (claimed : Weekday)
  | refused (fault : Fault)
  | trailing

def Problem.message : Problem → String
  | expectedLiteral s => s!"expected {Text.quoted s}"
  | expectedDigits n field => s!"expected {Text.integer n}-digit {field}"
  | expectedNumber => "expected number"
  | numberTooLong => "number has too many digits"
  | expectedFraction => "expected fractional digits"
  | fractionTooLong => "more than nine fractional digits"
  | expectedOffset => "expected 'Z' or an offset sign"
  | expectedOffsetSign => "expected an offset sign"
  | offsetFieldRange => "offset field out of range"
  | expectedUnit => "expected a unit"
  | unexpectedUnit c => s!"unexpected unit {Text.quoted (String.singleton c)}"
  | fractionOfUnit => "only seconds may have a fraction"
  | expectedTimeUnit => "expected a time unit after 'T'"
  | expectedAnyUnit => "expected at least one unit"
  | expectedZoneId => "expected a zone identifier"
  | expectedName field => s!"expected {field} name"
  | wrongWeekday date claimed =>
    s!"{date.text} is a {date.weekday.name}, not a {claimed.name}"
  | refused fault => fault.message?.getD ""
  | trailing => "unexpected trailing text"

/-- The integers in the wording that come from a text or a caller. -/
def Problem.shown : Problem → List Int
  | refused fault => fault.shown
  | _ => []

/-- Families of names that a caller chooses from. -/
inductive NameFamily where
  | timeUnit | roundingMode | foldPolicy | gapPolicy | weekday
  deriving DecidableEq, Repr

def NameFamily.name : NameFamily → String
  | timeUnit => "TimeUnit"
  | roundingMode => "RoundingMode"
  | foldPolicy => "Disambiguate"
  | gapPolicy => "GapPolicy"
  | weekday => "Weekday"

/-- What a date or clock that counts microseconds does not take. -/
inductive MicroFault where
  | year (n : Int)
  | month
  | day
  | clock (field : ClockField)
  | offset (shown : String)

def MicroFault.message : MicroFault → String
  | year n => s!"year {Text.integer n} is out of range"
  | month => "month must be in 1..12"
  | day => "day is out of range for month"
  | clock .nanosecond => "microsecond must be in 0..999999"
  | clock field => s!"{field.name} must be in 0..{Text.integer field.highest}"
  | offset shown =>
    let bounds := "strictly between -timedelta(hours=24) and timedelta(hours=24)"
    s!"offset must be a timedelta {bounds}, not {shown}."

inductive Error where
  | fault (fault : Fault)
  /-- The text is not of the form; reading stopped after `position` characters. -/
  | unreadable (form : Form) (text : String) (problem : Problem) (position : Nat)
  | notText (found : Datum)
  | resolverNeeded (text : String)
  | offsetMismatch (text : String) (stated : Offset) (zone : String) (actual : Offset)
  | fractionInRfc2822 (value : OffsetDateTime)
  | offsetSecondsInRfc2822 (value : OffsetDateTime)
  | notRecord (found : Datum)
  | recordWithoutType
  | recordWithoutValue (type : Datum)
  | resolverNeededForRecord
  | unknownZone (id : Datum)
  | ambiguous (wall : LocalDateTime) (zone : String)
  | skipped (wall : LocalDateTime) (zone : String)
  | inconsistent (wall : LocalDateTime) (zone : String)
  | unknownName (found : Datum) (family : NameFamily)
  | cannotDiff (minuend subtrahend : String)
  | cannotFormat (found : String)
  | expectedOffsetDateTime (found : String)
  | expectedExactTime (found : String)
  | expectedDateTime (found : String)
  | expectedValue (found : String)
  | unknownRecordType (type : Datum)
  | zonedNotRebuilt
  /-- A move by a number with a fraction, which leads out of the supported years. -/
  | fractionalYear (year : Datum)
  | fractionalInstant (nanos : Datum)
  | fractionalSpan (nanos : Datum)
  /-- A duration whose nanoseconds are a number with a fraction. -/
  | fractionalDuration
  | microField (fault : MicroFault)
  /-- The values do not have this operation at all. -/
  | unsupported

namespace Error

/-- The kind of error that is raised, if its wording can be written out. -/
def raised : Error → ErrorKind
  | fault f => f.kind
  | unreadable .. | notText .. | resolverNeeded .. | offsetMismatch .. | fractionInRfc2822 ..
  | offsetSecondsInRfc2822 .. | notRecord .. | recordWithoutType | recordWithoutValue ..
  | resolverNeededForRecord => .invalidFormat
  | unknownZone .. => .unknownZone
  | ambiguous .. => .ambiguousTime
  | skipped .. => .skippedTime
  | inconsistent .. => .timezone
  | unknownName .. | fractionalDuration | microField .. => .unfitValue
  | fractionalYear .. | fractionalInstant .. | fractionalSpan .. => .rangeOverflow
  | cannotDiff .. | cannotFormat .. | expectedOffsetDateTime .. | expectedExactTime ..
  | expectedDateTime .. | expectedValue .. | unknownRecordType .. | zonedNotRebuilt
  | unsupported => .unfitType

/-- The wording, if the cause has one. An operation that does not exist has none. -/
def wording? : Error → Option String
  | fault f => f.message?
  | unreadable form text problem position =>
    some s!"invalid {form.name} {Text.quoted text}: {problem.message} at position {Text.integer position}"
  | notText d => some s!"expected a string, got {d.kindName}"
  | resolverNeeded text => some s!"zoned value {Text.quoted text} needs a TimezoneResolver"
  | offsetMismatch text stated zone actual =>
    let start := s!"invalid zoned date-time {Text.quoted text}: offset {stated.text} does not match"
    some s!"{start} {zone}, which is at {actual.text} at that instant"
  | fractionInRfc2822 x => some s!"RFC 2822 has no fractional seconds; cannot format {x.text}"
  | offsetSecondsInRfc2822 x => some s!"RFC 2822 offsets have no seconds; cannot format {x.text}"
  | notRecord d => some s!"expected dict, got {d.kindName}"
  | recordWithoutType => some "missing '_type' field in JSON data"
  | recordWithoutValue type => some s!"missing 'value' field for {type.plain}"
  | resolverNeededForRecord => some "a TimezoneResolver is needed to restore a ZonedDateTime"
  | unknownZone id => some s!"unknown timezone {id.display}"
  | ambiguous wall zone => some s!"{wall.text} is ambiguous in timezone {Text.quoted zone}"
  | skipped wall zone => some s!"{wall.text} is skipped in timezone {Text.quoted zone}"
  | inconsistent wall zone =>
    some s!"rules for zone {Text.quoted zone} are inconsistent at {wall.text}"
  | unknownName d family => some s!"{d.display} is not a valid {family.name}"
  | cannotDiff minuend subtrahend => some s!"cannot diff {minuend} and {subtrahend}"
  | cannotFormat found => some s!"cannot format {found} as ISO 8601"
  | expectedOffsetDateTime found => some s!"expected OffsetDateTime, got {found}"
  | expectedExactTime found =>
    some s!"expected Instant, OffsetDateTime or ZonedDateTime, got {found}"
  | expectedDateTime found => some s!"expected a date-time value, got {found}"
  | expectedValue found => some s!"expected a Horologe value type, got {found}"
  | unknownRecordType type => some s!"unknown temporal type: {type.display}"
  | zonedNotRebuilt => some "ZonedDateTime cannot be pickled; store format_iso() instead"
  | fractionalYear x => some s!"year {x.display} is out of range"
  | fractionalInstant x => some s!"instant out of range: {x.display} ns since epoch"
  | fractionalSpan x => some s!"duration time part out of range: {x.display} ns"
  | fractionalDuration => some "Unknown format code 'd' for object of type 'float'"
  | microField f => some f.message
  | unsupported => none

/-- The integers in the wording that come from a caller. -/
def shown : Error → List Int
  | fault f => f.shown
  | unreadable _ _ problem _ => problem.shown
  | recordWithoutValue d | unknownZone d | unknownName d _ | unknownRecordType d => d.integers
  | _ => []

/-- The kind of error that a caller sees. A complaint about too many digits is not caught by a reader, so
it comes in place of the reader's own. -/
def kind (e : Error) : ErrorKind := e.raised.naming e.shown

def message? (e : Error) : Option String :=
  if ∀ n ∈ e.shown, Text.Writable n then e.wording? else some Text.tooManyDigits

end Error

/-- A refused value is one of the ways in which an operation fails. -/
instance : MonadLift (Except Fault) (Except Error) :=
  ⟨fun result => result.mapError Error.fault⟩

@[simp] theorem monadLift_ok {α : Type} (a : α) :
    (MonadLift.monadLift (Except.ok a : Except Fault α) : Except Error α) = .ok a := rfl

@[simp] theorem monadLift_error {α : Type} (f : Fault) :
    (MonadLift.monadLift (Except.error f : Except Fault α) : Except Error α) = .error (.fault f) := rfl

end CivilTime
