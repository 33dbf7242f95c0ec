/- Zone tables: which offset a zone has from when on, and sets of such tables by name. -/
import CivilTime.Datum.Order
import CivilTime.Offset.Operations

namespace CivilTime

/-- What holds in a zone for a while. Whether it is summer time is only passed on. -/
structure Period where
  offset : Offset
  abbreviation : String
  isDst : Datum

/-- A new period and the second at which it begins, counted from the epoch. -/
structure Transition where
  time : Int
  period : Period

/-- A zone has an initial period, and any transitions in any order. Of several that begin at the same
second the one listed last holds. -/
structure Zone where
  initial : Period
  transitions : List Transition

namespace Period

/-- The offset is judged before the abbreviation. -/
def ofFields (offset abbreviation isDst : Datum) : Except EntryFault Period :=
  match offset.int? with
  | none => .error (.offsetNotInteger offset)
  | some n =>
    match Offset.ofSeconds? n with
    | none => .error (.offsetRange n)
    | some offset =>
      match abbreviation.text? with
      | none => .error (.abbreviationNotText abbreviation)
      | some abbreviation => .ok { offset, abbreviation, isDst }

end Period

namespace Transition

/-- The time is judged before the period. -/
def ofFields (time offset abbreviation isDst : Datum) : Except EntryFault Transition :=
  match time.int? with
  | none => .error (.timeNotInteger time)
  | some time => do
    let period ← Period.ofFields offset abbreviation isDst
    return { time, period }

end Transition

namespace Zone

/-- An entry is a record that has no field besides the named ones. -/
def checkFields (names : List String) : Datum → Except TableFault Unit
  | .record fields =>
    if fields.all (fun f => names.contains f.1) then .ok () else .error .shape
  | _ => .error .shape

def requiredField (name : String) (entry : Datum) : Except TableFault Datum :=
  match entry.field? name with
  | some d => .ok d
  | none => .error .shape

/-- A period is described by an offset, and if need be an abbreviation and whether it is summer time. -/
def periodOfEntry (entry : Datum) : Except TableFault Period := do
  checkFields ["offset", "abbreviation", "is_dst"] entry
  let offset ← requiredField "offset" entry
  let abbreviation := (entry.field? "abbreviation").getD (.text "")
  let isDst := (entry.field? "is_dst").getD (.bool false)
  (Period.ofFields offset abbreviation isDst).mapError .entry

/-- A transition is described by its time and the fields of its period. -/
def transitionOfEntry (entry : Datum) : Except TableFault Transition := do
  checkFields ["at", "offset", "abbreviation", "is_dst"] entry
  let time ← requiredField "at" entry
  let offset ← requiredField "offset" entry
  let abbreviation := (entry.field? "abbreviation").getD (.text "")
  let isDst := (entry.field? "is_dst").getD (.bool false)
  (Transition.ofFields time offset abbreviation isDst).mapError .entry

/-- The entries of a list of transitions. Whatever else is empty lists none. -/
def transitionEntries : Option Datum → Except TableFault (List Datum)
  | none => .ok []
  | some (.list items) => .ok items
  | some (.text "") => .ok []
  | some (.record []) => .ok []
  | some _ => .error .shape

/-- A zone is described by its initial period, and if need be a list of transitions. The first fault
in this order is the one reported. -/
def ofEntry (entry : Datum) : Except TableFault Zone :=
  match entry with
  | .record _ =>
    match entry.field? "initial" with
    | none => .error .noInitial
    | some initial => do
      let initial ← periodOfEntry initial
      let entries ← transitionEntries (entry.field? "transitions")
      let transitions ← entries.mapM transitionOfEntry
      return { initial, transitions }
  | _ => .error .shape

/-- A zone that keeps one offset for all time. -/
def fixed (period : Period) : Zone := { initial := period, transitions := [] }

end Zone

/-- Zones under different names, in the order in which they were added. A name is any plain value, though
only texts are ever asked for. -/
structure ZoneSet where
  entries : List (Datum × Zone)
  names_differ : entries.Pairwise fun a b => a.1.same b.1 = false

namespace ZoneSet

def empty : ZoneSet := ⟨[], List.Pairwise.nil⟩

/-- The zone of a name that is a text. -/
def find? (s : ZoneSet) (id : String) : Option Zone :=
  (s.entries.find? fun e => e.1.same (.text id)).map (·.2)

def contains (s : ZoneSet) (id : String) : Bool := (s.find? id).isSome

def isTaken (s : ZoneSet) (name : Datum) : Bool := s.entries.any fun e => e.1.same name

/-- Adds a zone at the end, unless its name is taken. A compound value is no name. -/
def insert (s : ZoneSet) (name : Datum) (z : Zone) : Except Error ZoneSet :=
  if name.isCompound then .error .unsupported
  else if h : s.isTaken name = false then
    .ok ⟨s.entries ++ [(name, z)], List.pairwise_append.mpr
      ⟨s.names_differ, List.pairwise_singleton _ _, by
        intro a ha b hb
        rw [List.mem_singleton.mp hb]
        exact eq_false_of_ne_true fun e => by
          rw [isTaken, List.any_eq_false] at h
          exact h a ha e⟩⟩
  else .error (.fault (.duplicateZone name))

/-- The first zone whose name is taken is refused. -/
def ofList (zones : List (Datum × Zone)) : Except Error ZoneSet :=
  zones.foldlM (fun s e => s.insert e.1 e.2) empty

/-- A set from the descriptions of its zones, judged in order. -/
def ofEntries (entries : List (Datum × Datum)) : Except Error ZoneSet := do
  let zones ← entries.mapM fun e =>
    match Zone.ofEntry e.2 with
    | .ok z => .ok (e.1, z)
    | .error f => .error (.fault (.zoneTable e.1 f))
  ofList zones

/-- The zones by ascending name, if all names have an order among each other. -/
def sorted? (s : ZoneSet) : Option (List (Datum × Zone)) :=
  if comparable (s.entries.map (·.1)) then
    some (s.entries.mergeSort fun a b => a.1.order? b.1 != some .gt)
  else none
where
  comparable : List Datum → Bool
    | [] => true
    | d :: r => r.all (fun e => (d.order? e).isSome) && comparable r

/-- The names of the zones, as messages show the set. -/
def text? (s : ZoneSet) : Option String :=
  s.sorted?.map fun zones => "ZoneRuleSet(" ++ (Datum.list (zones.map (·.1))).display ++ ")"

end ZoneSet

end CivilTime
