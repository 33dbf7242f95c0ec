/- A date with a time of day, in no particular zone. -/
import CivilTime.Date.Basic
import CivilTime.TimeOfDay.Basic

namespace CivilTime

/-- What a calendar and a clock on the wall read. -/
structure LocalDateTime where
  date : Date
  time : TimeOfDay
  deriving DecidableEq

namespace LocalDateTime

/-- Nanoseconds from 1970-01-01T00:00:00 to this reading, as if every day had the same length. -/
def epochNanos (l : LocalDateTime) : Int :=
  (l.date.dayNumber - Calendar.epochDay) * nanosPerDay + l.time.nanos

theorem ext_epochNanos {a b : LocalDateTime} (h : a.epochNanos = b.epochNanos) : a = b := by
  obtain ⟨da, ta⟩ := a
  obtain ⟨db, tb⟩ := b
  have ha := ta.nonneg
  have ha' := ta.lt_day
  have hb := tb.nonneg
  have hb' := tb.lt_day
  simp only [epochNanos, nanosPerDay] at h ha' hb'
  have hd : da.dayNumber = db.dayNumber := by omega
  have ht : ta.nanos = tb.nanos := by omega
  rw [Date.ext_dayNumber hd, TimeOfDay.ext_nanos ht]

/-- Readings are ordered as points of one time line. -/
instance : LT LocalDateTime := ⟨fun a b => a.epochNanos < b.epochNanos⟩

instance : LE LocalDateTime := ⟨fun a b => a.epochNanos ≤ b.epochNanos⟩

instance (a b : LocalDateTime) : Decidable (a < b) :=
  inferInstanceAs (Decidable (a.epochNanos < b.epochNanos))

instance (a b : LocalDateTime) : Decidable (a ≤ b) :=
  inferInstanceAs (Decidable (a.epochNanos ≤ b.epochNanos))

def min : LocalDateTime := ⟨Date.min, TimeOfDay.midnight⟩

def max : LocalDateTime := ⟨Date.max, TimeOfDay.last⟩

/-- The reading at a given distance from the epoch, if it is within the years 1 to 9999. -/
def ofEpochNanos? (n : Int) : Option LocalDateTime :=
  match Date.ofDayNumber? (Calendar.epochDay + n / nanosPerDay), TimeOfDay.ofNanos? (n % nanosPerDay) with
  | some date, some time => some ⟨date, time⟩
  | _, _ => none

theorem ofEpochNanos?_eq_some {n : Int} {l : LocalDateTime} :
    ofEpochNanos? n = some l ↔ l.epochNanos = n := by
  unfold ofEpochNanos?
  constructor
  · intro h
    split at h
    · rename_i date time hd ht
      cases h
      have hd := Date.ofDayNumber?_eq_some.mp hd
      have ht := TimeOfDay.ofNanos?_eq_some.mp ht
      simp only [epochNanos, hd, ht, nanosPerDay]
      omega
    · cases h
  · intro h
    have h0 := l.time.nonneg
    have h1 := l.time.lt_day
    simp only [epochNanos, nanosPerDay] at h h1
    have hd : Date.ofDayNumber? (Calendar.epochDay + n / nanosPerDay) = some l.date :=
      Date.ofDayNumber?_eq_some.mpr (by simp only [nanosPerDay]; omega)
    have ht : TimeOfDay.ofNanos? (n % nanosPerDay) = some l.time :=
      TimeOfDay.ofNanos?_eq_some.mpr (by simp only [nanosPerDay]; omega)
    rw [hd, ht]

def year (l : LocalDateTime) : Int := l.date.year

def month (l : LocalDateTime) : Int := l.date.month

def day (l : LocalDateTime) : Int := l.date.day

def hour (l : LocalDateTime) : Int := l.time.hour

def minute (l : LocalDateTime) : Int := l.time.minute

def second (l : LocalDateTime) : Int := l.time.second

def nanosecond (l : LocalDateTime) : Int := l.time.nanosecond

end LocalDateTime

end CivilTime
