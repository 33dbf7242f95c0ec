import CivilTime.Calendar.Unchecked
import CivilTime.Exchange.Micros
import CivilTime.Exchange.Record
import CivilTime.Exchange.Unix
import CivilTime.Value.Arithmetic
import CivilTime.Value.Conversion
import CivilTime.Value.Order
import CivilTime.Value.Parts
import CivilTime.Proofs.Outcome
import CivilTime.Proofs.Calendar.DayNumber
import CivilTime.Proofs.Calendar.Months
import CivilTime.Proofs.Calendar.Order
import CivilTime.Proofs.Calendar.Split
import CivilTime.Proofs.Difference
import CivilTime.Proofs.Duration
import CivilTime.Proofs.Zone.InEffect
import CivilTime.Proofs.Zone.Index
import CivilTime.Proofs.Zone.Rearranged
import CivilTime.Proofs.Zone.Classification
import CivilTime.Proofs.ZonedDateTime.Landing
import CivilTime.Proofs.ZonedDateTime.Settle
import CivilTime.Proofs.ZonedDateTime.Difference
import CivilTime.Proofs.Zone.Selection
import CivilTime.Proofs.ZonedDateTime.Reading
import CivilTime.Proofs.Iso8601.DurationReader
import CivilTime.Proofs.Iso8601.Reader
import CivilTime.Proofs.Rfc3339
import CivilTime.Proofs.Value.Parsing
import CivilTime.Proofs.Value.Dispatch
import CivilTime.Proofs.Value.RoundTrip
import CivilTime.Proofs.Zone.NamedChange
import CivilTime.Proofs.ZonedDateTime.Gap
import CivilTime.Proofs.ZonedDateTime.Passes
import CivilTime.Proofs.Value.Conversion
import CivilTime.Proofs.Zone.Locality
import CivilTime.Proofs.Text.DigitRun
import CivilTime.Proofs.Iso8601.Forms
import CivilTime.Proofs.Iso8601.Spelling
import CivilTime.Proofs.Rfc3339.Grammar
import CivilTime.Proofs.Iso8601.Groups
import CivilTime.Proofs.Iso8601.DurationGrammar
import CivilTime.Proofs.Rfc2822
import CivilTime.Proofs.LocalDateTime.Range
import CivilTime.Proofs.LocalDateTime.Reversal
import CivilTime.Proofs.LocalDateTime.Rounding
import CivilTime.Proofs.ZonedDateTime.Reversal
import CivilTime.Proofs.Calendar.MonthMoves
import CivilTime.Proofs.Calendar.Tables
import CivilTime.Proofs.Exchange.Micros
import CivilTime.Proofs.Value.Parts
import CivilTime.Proofs.Iso8601.Wording
