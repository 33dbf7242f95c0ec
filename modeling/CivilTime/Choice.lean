/- Choosing a member of a fixed family by its name. -/
import CivilTime.LocalDateTime.Operations
import CivilTime.Zone.Policy

namespace CivilTime

/-- The member with the given name. Anything that is no text names none. -/
def choose {α : Type} (family : NameFamily) (members : List α) (name : α → String) (d : Datum) :
    Except Error α :=
  match d.text?.bind fun s => members.find? fun m => name m == s with
  | some m => .ok m
  | none => .error (.unknownName d family)

namespace TimeUnit

def ofDatum : Datum → Except Error TimeUnit := choose .timeUnit all name

theorem ofDatum_name (unit : TimeUnit) : ofDatum (.text unit.name) = .ok unit := by
  cases unit <;> rfl

/-- The nanoseconds of an increment of the unit. -/
def step (unit : TimeUnit) (increment : Datum) : Except Fault Int :=
  match increment.int? with
  | none => .error (.incrementNotInteger increment)
  | some n => if unit.Allows n then .ok (n * unit.nanos) else .error (.increment unit n)

end TimeUnit

namespace RoundingMode

def ofDatum : Datum → Except Error RoundingMode := choose .roundingMode all name

theorem ofDatum_name (mode : RoundingMode) : ofDatum (.text mode.name) = .ok mode := by
  cases mode <;> rfl

end RoundingMode

namespace FoldPolicy

def ofDatum : Datum → Except Error FoldPolicy := choose .foldPolicy all name

theorem ofDatum_name (policy : FoldPolicy) : ofDatum (.text policy.name) = .ok policy := by
  cases policy <;> rfl

end FoldPolicy

namespace GapPolicy

def ofDatum : Datum → Except Error GapPolicy := choose .gapPolicy all name

theorem ofDatum_name (policy : GapPolicy) : ofDatum (.text policy.name) = .ok policy := by
  cases policy <;> rfl

end GapPolicy

namespace Weekday

/-- The day with an ISO number. A truth value counts as a number here. -/
def ofDatum (d : Datum) : Except Error Weekday :=
  match d.quantity? with
  | some (.whole n) =>
    match ofNumber? n with
    | some w => .ok w
    | none => .error (.unknownName d .weekday)
  | _ => .error (.unknownName d .weekday)

end Weekday

namespace LocalDateTime

/-- Rounds to a multiple of an increment of a unit. The unit is judged first, then the increment, then
the mode. -/
def round (l : LocalDateTime) (unit increment mode : Datum) : Except Error LocalDateTime := do
  let unit ← TimeUnit.ofDatum unit
  let step ← unit.step increment
  let mode ← RoundingMode.ofDatum mode
  l.roundTo mode step

end LocalDateTime

end CivilTime
