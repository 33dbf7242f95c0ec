/- Answers about zones by name. A resolver remembers the index of each zone that it was asked about. -/
import CivilTime.Choice
import CivilTime.Zone.Resolution

namespace CivilTime

/-- A set of zones, and for those asked about before, the index or the knowledge that there is none. -/
structure Resolver where
  zones : ZoneSet
  memo : List (String × Option ZoneIndex)
  memo_eq : ∀ e ∈ memo, ∃ z, zones.find? e.1 = some z ∧ e.2 = ZoneIndex.ofZone? z

namespace Resolver

/-- A resolver that has not been asked anything. -/
def ofZones (zones : ZoneSet) : Resolver := ⟨zones, [], by simp⟩

def hasZone (r : Resolver) (id : String) : Bool := r.zones.contains id

def zone (r : Resolver) (id : String) : Except Error Zone :=
  match r.zones.find? id with
  | some z => .ok z
  | none => .error (.unknownZone (.text id))

/-- The name of a zone. No other plain value is one, and a compound value cannot even be asked about. -/
def zoneName (d : Datum) : Except Error String :=
  match d with
  | .text id => .ok id
  | d => .error (if d.isCompound then .unsupported else .unknownZone d)

def hasZoneNamed (r : Resolver) (d : Datum) : Except Error Bool :=
  match d with
  | .text id => .ok (r.hasZone id)
  | d => if d.isCompound then .error .unsupported else .ok false

/-- What is remembered of a zone. -/
def remembered? (r : Resolver) (id : String) : Option (Option ZoneIndex) :=
  (r.memo.find? fun e => e.1 == id).map (·.2)

/-- The zone made ready to be asked, from memory where possible. -/
def lookup (r : Resolver) (id : String) : Except Error Lookup := do
  let z ← r.zone id
  match (r.remembered? id).getD (ZoneIndex.ofZone? z) with
  | some x => return .indexed x
  | none => return .direct z

/-- The resolver after a question about a zone. -/
def remember (r : Resolver) (id : String) : Resolver :=
  match h : r.zones.find? id with
  | none => r
  | some z =>
    if (r.remembered? id).isSome then r
    else
      { zones := r.zones
        memo := (id, ZoneIndex.ofZone? z) :: r.memo
        memo_eq := by
          intro e he
          rcases List.mem_cons.mp he with rfl | he
          · exact ⟨z, h, rfl⟩
          · exact r.memo_eq e he }

/-- What is remembered is what would be found anew. -/
theorem lookup_eq (r : Resolver) (id : String) :
    r.lookup id = (r.zone id).map Lookup.ofZone := by
  unfold lookup zone
  cases hz : r.zones.find? id with
  | none => rfl
  | some z =>
    have hm : (r.remembered? id).getD (ZoneIndex.ofZone? z) = ZoneIndex.ofZone? z := by
      unfold remembered?
      cases hf : r.memo.find? fun e => e.1 == id with
      | none => rfl
      | some e =>
        obtain ⟨z', hz', he⟩ := r.memo_eq e (List.mem_of_find?_eq_some hf)
        have hid : e.1 = id := by simpa using List.find?_some hf
        rw [hid, hz] at hz'
        cases hz'
        exact he
    show (match (r.remembered? id).getD (ZoneIndex.ofZone? z) with
      | some x => (Except.ok (Lookup.indexed x) : Except Error Lookup)
      | none => .ok (.direct z)) = .ok (Lookup.ofZone z)
    rw [hm, Lookup.ofZone]
    cases ZoneIndex.ofZone? z <;> rfl

/-- The period of a zone at an instant. -/
def periodAt (r : Resolver) (id : String) (i : Instant) : Except Error Period := do
  let x ← r.lookup id
  return x.periodAt i.unixSeconds

/-- How a zone shows a wall-clock time. -/
def resolve (r : Resolver) (id : String) (wall : LocalDateTime) : Except Error Resolution := do
  let x ← r.lookup id
  match x.resolve? wall.epochNanos with
  | some answer => return answer
  | none => throw (.inconsistent wall id)

/-- The instant that a wall-clock time stands for under the policies. -/
def instantOf (r : Resolver) (id : String) (wall : LocalDateTime) (fold : FoldPolicy)
    (gap : GapPolicy) : Except Error Instant := do
  let answer ← r.resolve id wall
  match answer with
  | .unique _ => pure ()
  | .fold .. => if fold = .reject then throw (.ambiguous wall id)
  | .gap .. => if gap = .reject then throw (.skipped wall id)
  Instant.ofNanos (wall.epochNanos - (answer.period fold).offset.nanos)

end Resolver

end CivilTime
