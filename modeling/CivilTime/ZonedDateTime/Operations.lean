/- Arithmetic in a zone: dates move on the wall clock, nanoseconds on the time line. -/
import CivilTime.ZonedDateTime.Basic

namespace CivilTime

/-- Policies by their names. A name is judged only when an operation comes to need it. -/
structure PolicyNames where
  fold : Datum := .text "reject"
  gap : Datum := .text "reject"

/-- The instant that a wall-clock time stands for, the policies judged before the zone. -/
def Resolver.instantNamed (r : Resolver) (zone : Datum) (wall : LocalDateTime) (names : PolicyNames) :
    Except Error Instant := do
  let fold ← FoldPolicy.ofDatum names.fold
  let gap ← GapPolicy.ofDatum names.gap
  let id ← zoneName zone
  r.instantOf id wall fold gap

theorem Resolver.instantNamed_name (r : Resolver) (id : String) (wall : LocalDateTime)
    (fold : FoldPolicy) (gap : GapPolicy) :
    r.instantNamed (.text id) wall ⟨.text fold.name, .text gap.name⟩ = r.instantOf id wall fold gap := by
  simp only [instantNamed, FoldPolicy.ofDatum_name, GapPolicy.ofDatum_name]
  rfl

/-- A move that is accepted does not go back before the first month of year 1. -/
theorem Calendar.months_of_shift_eq_ok {n months days : Int} {d : Date}
    (h : Calendar.shift n months days = .ok d) :
    months = 0 ∨ 12 ≤ (YearMonthDay.ofDayNumber n).monthIndex + months := by
  by_cases hm : months = 0
  · exact Or.inl hm
  · refine Or.inr ?_
    unfold Calendar.shift Calendar.addMonths at h
    rw [if_neg hm] at h
    by_cases hy : Calendar.firstYear ≤ ((YearMonthDay.ofDayNumber n).addMonths months).year ∧
        ((YearMonthDay.ofDayNumber n).addMonths months).year ≤ Calendar.lastYear
    · have := hy.1
      simp only [YearMonthDay.addMonths, Calendar.firstYear] at this
      omega
    · simp only [if_neg hy] at h
      cases h

namespace ZonedDateTime

/-- An instant in a zone that is given by a value. -/
def ofInstantNamed (i : Instant) (zone : Datum) (r : Resolver) : Except Error ZonedDateTime := do
  let id ← Resolver.zoneName zone
  ofInstant i id r

/-- A reading in a zone, the policies judged before the zone. -/
def ofWallNamed (wall : LocalDateTime) (zone : Datum) (r : Resolver) (names : PolicyNames) :
    Except Error ZonedDateTime := do
  let i ← r.instantNamed zone wall names
  ofInstantNamed i zone r

/-- A reading of the seven fields in a zone. The fields are judged first. -/
def ofFields (f : LocalDateTime.Fields) (zone : Datum) (r : Resolver) (names : PolicyNames) :
    Except Error ZonedDateTime := do
  let wall ← LocalDateTime.ofFields f
  ofWallNamed wall zone r names

/-- Moves by a duration, where `locate` finds the instant of the shifted reading. An exact duration
leaves the reading out of it. -/
def addWith (z : ZonedDateTime) (d : Duration) (locate : LocalDateTime → Except Error Instant) :
    Except Error ZonedDateTime := do
  let start ←
    if d.hasDatePart then do
      let moved ← z.wall.shiftDate d.months d.days
      locate moved
    else pure z.instant
  let i ← start.addNanos d.nanos
  z.withInstant i

/-- Months and days first, on the wall clock, then nanoseconds. -/
def add (z : ZonedDateTime) (d : Duration) (fold : FoldPolicy) (gap : GapPolicy) :
    Except Error ZonedDateTime :=
  z.addWith d fun wall => z.resolver.instantOf z.zoneId wall fold gap

def addNamed (z : ZonedDateTime) (d : Duration) (names : PolicyNames) : Except Error ZonedDateTime :=
  z.addWith d fun wall => z.resolver.instantNamed (.text z.zoneId) wall names

def subtractWith (z : ZonedDateTime) (d : Duration) (locate : LocalDateTime → Except Error Instant) :
    Except Error ZonedDateTime := do
  let start ← z.instant.addNanos (-d.nanos)
  let moved ← z.withInstant start
  if d.hasDatePart then
    let wall ← moved.wall.shiftDate (-d.months) (-d.days)
    let i ← locate wall
    z.withInstant i
  else return moved

/-- Nanoseconds first, then months and days on the wall clock. -/
def subtract (z : ZonedDateTime) (d : Duration) (fold : FoldPolicy) (gap : GapPolicy) :
    Except Error ZonedDateTime :=
  z.subtractWith d fun wall => z.resolver.instantOf z.zoneId wall fold gap

def subtractNamed (z : ZonedDateTime) (d : Duration) (names : PolicyNames) :
    Except Error ZonedDateTime :=
  z.subtractWith d fun wall => z.resolver.instantNamed (.text z.zoneId) wall names

def replace (z : ZonedDateTime) (c : LocalDateTime.Changes) (names : PolicyNames) :
    Except Error ZonedDateTime := do
  let wall ← z.wall.replace c
  let i ← z.resolver.instantNamed (.text z.zoneId) wall names
  z.withInstant i

/-- Where a split of months and days, counted from `start` on the wall clock, arrives on the time line.
The empty split stays at the instant it starts from. -/
def anchor (r : Resolver) (zoneId : String) (origin : Instant) (start : LocalDateTime)
    (months days : Int) : Except Error Instant :=
  if months = 0 ∧ days = 0 then .ok origin
  else do
    let moved ← start.shiftDate months days
    r.instantOf zoneId moved .compatible .shiftForward

/-- Takes days, and where there are none a month, off a split until it does not arrive past `later`. -/
def settle (later : ZonedDateTime) (origin : Instant) (start : LocalDateTime) (months days : Int) :
    Except Error Duration :=
  match anchor later.resolver later.zoneId origin start months days with
  | .error e => .error e
  | .ok reached =>
    if 0 ≤ later.instant.diff reached then
      (Duration.ofParts months days (later.instant.diff reached)).mapError .fault
    else if 0 < days then settle later origin start months (days - 1)
    else
      match _h : start.date.shift (months - 1) 0 with
      | .error f => .error (.fault f)
      | .ok date =>
        settle later origin start (months - 1) (later.wall.date.dayNumber - date.dayNumber)
termination_by ((months + max 0 start.date.ymd.monthIndex).toNat, days.toNat)
decreasing_by
  · apply Prod.Lex.right
    omega
  · apply Prod.Lex.left
    have h' := Calendar.months_of_shift_eq_ok _h
    simp only [Date.ymd]
    omega

/-- The distance from an earlier value in any zone, split on the wall clock of the later one. -/
def since (later earlier : ZonedDateTime) : Except Error Duration := do
  let start ← ofInstant earlier.instant later.zoneId later.resolver
  let (months, days) ← Calendar.monthsDaysBetween start.wall.date.dayNumber start.wall.time.nanos
    later.wall.date.dayNumber later.wall.time.nanos
  settle later earlier.instant start.wall months days

/-- The distance from `b` to `a`, negative if `a` is the earlier one. -/
def diff (a b : ZonedDateTime) : Except Error Duration :=
  if a.nanos < b.nanos then (-·) <$> b.since a else a.since b

end ZonedDateTime

end CivilTime
