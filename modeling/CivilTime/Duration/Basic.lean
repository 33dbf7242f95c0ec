/- Durations with a calendar part (months and days) and an exact part (nanoseconds). The three are kept
apart, because the length of a month or a day depends on where it is applied. -/
import CivilTime.Nanos

namespace CivilTime

namespace Duration

/-- As many months as there are in the years 1 to 9999. -/
def maxMonths : Int := 119988

/-- Enough days for the years 1 to 9999. -/
def maxDays : Int := 3659634

def maxNanos : Int := maxDays * nanosPerDay

/-- The three components do not pull in different directions. -/
def OneSign (months days nanos : Int) : Prop :=
  (0 ≤ months ∧ 0 ≤ days ∧ 0 ≤ nanos) ∨ (months ≤ 0 ∧ days ≤ 0 ∧ nanos ≤ 0)

instance (months days nanos : Int) : Decidable (OneSign months days nanos) := by
  unfold OneSign
  infer_instance

theorem OneSign.neg {m d n : Int} (h : OneSign m d n) : OneSign (-m) (-d) (-n) := by
  unfold OneSign at *
  omega

/-- The size of each component is bounded. -/
def Bounded (months days nanos : Int) : Prop :=
  (-maxMonths ≤ months ∧ months ≤ maxMonths) ∧ (-maxDays ≤ days ∧ days ≤ maxDays) ∧
    (-maxNanos ≤ nanos ∧ nanos ≤ maxNanos)

instance (months days nanos : Int) : Decidable (Bounded months days nanos) := by
  unfold Bounded
  infer_instance

theorem Bounded.neg {m d n : Int} (h : Bounded m d n) : Bounded (-m) (-d) (-n) := by
  unfold Bounded at *
  omega

end Duration

/-- A distance in time. Its components share one sign and are bounded. -/
structure Duration where
  months : Int
  days : Int
  nanos : Int
  oneSign : Duration.OneSign months days nanos
  bounded : Duration.Bounded months days nanos
  deriving DecidableEq

namespace Duration

theorem ext_parts {a b : Duration} (hm : a.months = b.months) (hd : a.days = b.days)
    (hn : a.nanos = b.nanos) : a = b := by
  cases a
  cases b
  cases hm
  cases hd
  cases hn
  rfl

def zero : Duration := ⟨0, 0, 0, by decide, by decide⟩

instance : Neg Duration :=
  ⟨fun d => ⟨-d.months, -d.days, -d.nanos, d.oneSign.neg, d.bounded.neg⟩⟩

@[simp] theorem neg_months (d : Duration) : (-d).months = -d.months := rfl

@[simp] theorem neg_days (d : Duration) : (-d).days = -d.days := rfl

@[simp] theorem neg_nanos (d : Duration) : (-d).nanos = -d.nanos := rfl

theorem neg_neg (d : Duration) : -(-d) = d :=
  ext_parts (Int.neg_neg _) (Int.neg_neg _) (Int.neg_neg _)

def hasDatePart (d : Duration) : Bool := d.months != 0 || d.days != 0

/-- The duration has the same length wherever it is applied. -/
def isExact (d : Duration) : Bool := !d.hasDatePart

def isZero (d : Duration) : Bool := d.months == 0 && d.days == 0 && d.nanos == 0

def isNegative (d : Duration) : Bool := decide (d.months < 0 ∨ d.days < 0 ∨ d.nanos < 0)

def abs (d : Duration) : Duration := if d.isNegative then -d else d

/-- The months and days alone. -/
def datePart (d : Duration) : Duration :=
  ⟨d.months, d.days, 0, by have h := d.oneSign; unfold OneSign at *; omega,
    by have h := d.bounded; simp only [Bounded, maxNanos, nanosPerDay, maxDays] at *; omega⟩

/-- The nanoseconds alone. -/
def timePart (d : Duration) : Duration :=
  ⟨0, 0, d.nanos, by have h := d.oneSign; unfold OneSign at *; omega,
    by have h := d.bounded; simp only [Bounded, maxMonths, maxDays] at *; omega⟩

end Duration

end CivilTime
