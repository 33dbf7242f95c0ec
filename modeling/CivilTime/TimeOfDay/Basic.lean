/- Times of day, held as nanoseconds since midnight. -/
import CivilTime.Nanos

namespace CivilTime

/-- A time of day. There are no leap seconds: every day has the same length. -/
structure TimeOfDay where
  nanos : Int
  nonneg : 0 ≤ nanos
  lt_day : nanos < nanosPerDay
  deriving DecidableEq

namespace TimeOfDay

theorem ext_nanos {a b : TimeOfDay} (h : a.nanos = b.nanos) : a = b := by
  cases a
  cases b
  cases h
  rfl

/-- Times are ordered within the day. -/
instance : LT TimeOfDay := ⟨fun a b => a.nanos < b.nanos⟩

instance : LE TimeOfDay := ⟨fun a b => a.nanos ≤ b.nanos⟩

instance (a b : TimeOfDay) : Decidable (a < b) :=
  inferInstanceAs (Decidable (a.nanos < b.nanos))

instance (a b : TimeOfDay) : Decidable (a ≤ b) :=
  inferInstanceAs (Decidable (a.nanos ≤ b.nanos))

/-- The time a given number of nanoseconds after midnight, if that is within the day. -/
def ofNanos? (n : Int) : Option TimeOfDay :=
  if h : 0 ≤ n ∧ n < nanosPerDay then some ⟨n, h.1, h.2⟩ else none

theorem ofNanos?_eq_some {n : Int} {t : TimeOfDay} : ofNanos? n = some t ↔ t.nanos = n := by
  unfold ofNanos?
  split
  · rename_i h
    constructor
    · intro e
      cases e
      rfl
    · intro e
      exact congrArg some (ext_nanos e.symm)
  · rename_i h
    constructor
    · intro e
      cases e
    · intro e
      exact absurd ⟨e ▸ t.nonneg, e ▸ t.lt_day⟩ h

def midnight : TimeOfDay := ⟨0, by decide, by decide⟩

def noon : TimeOfDay := ⟨12 * nanosPerHour, by decide, by decide⟩

/-- The last nanosecond of the day. -/
def last : TimeOfDay := ⟨nanosPerDay - 1, by decide, by decide⟩

def hour (t : TimeOfDay) : Int := t.nanos / nanosPerHour

def minute (t : TimeOfDay) : Int := t.nanos % nanosPerHour / nanosPerMinute

def second (t : TimeOfDay) : Int := t.nanos % nanosPerMinute / nanosPerSecond

/-- Nanoseconds since the start of the second. -/
def nanosecond (t : TimeOfDay) : Int := t.nanos % nanosPerSecond

def microsecond (t : TimeOfDay) : Int := t.nanosecond / nanosPerMicrosecond

def millisecond (t : TimeOfDay) : Int := t.nanosecond / nanosPerMillisecond

/-- Clock fields count the nanoseconds of the day. -/
theorem nanos_eq_fields (t : TimeOfDay) :
    t.nanos = t.hour * nanosPerHour + t.minute * nanosPerMinute + t.second * nanosPerSecond
      + t.nanosecond := by
  simp only [hour, minute, second, nanosecond, nanosPerHour, nanosPerMinute, nanosPerSecond]
  omega

end TimeOfDay

end CivilTime
