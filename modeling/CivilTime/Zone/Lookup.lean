/- Two ways to look up a zone table. One goes through all entries and takes tables in any order; the other
bisects the times of a table in ascending order. -/
import CivilTime.Zone.Table

namespace CivilTime

/-- A time at which a zone goes over from one period to another. -/
structure Change where
  time : Int
  before : Period
  after : Period

namespace Zone

/-- The transition that has begun last by the given second, in tables of any order. -/
def latest? (transitions : List Transition) (seconds : Int) : Option Transition :=
  transitions.foldl
    (fun best t =>
      if t.time ≤ seconds ∧ best.all (fun b => decide (b.time ≤ t.time)) then some t else best)
    none

/-- The period that holds at the given second. -/
def periodAt (z : Zone) (seconds : Int) : Period :=
  match latest? z.transitions seconds with
  | none => z.initial
  | some t => t.period

/-- The changes after `lo` up to and including `hi`, by ascending time. -/
def changesBetween (z : Zone) (lo hi : Int) : List Change :=
  let found := z.transitions.filter fun t => decide (lo < t.time ∧ t.time ≤ hi)
  (found.mergeSort fun a b => decide (a.time ≤ b.time)).map fun t =>
    { time := t.time, before := z.periodAt (t.time - 1), after := t.period }

/-- Each transition begins later than the one listed before it. -/
def ascending : List Transition → Bool
  | a :: b :: r => decide (a.time < b.time) && ascending (b :: r)
  | _ => true

end Zone

/-- The times of a table in ascending order, and the periods around them: the one at a position holds
before the time at that position, the next one from then on. -/
structure ZoneIndex where
  times : Array Int
  periods : Array Period
  size_periods : periods.size = times.size + 1

namespace ZoneIndex

/-- Only tables in ascending order can be indexed. -/
def ofZone? (z : Zone) : Option ZoneIndex :=
  if Zone.ascending z.transitions then
    some
      { times := (z.transitions.map Transition.time).toArray
        periods := (z.initial :: z.transitions.map Transition.period).toArray
        size_periods := by simp }
  else none

/-- How many of the ascending times from position `lo` up to `hi` are at most the given second, plus
`lo`. -/
def countUpTo (times : Array Int) (seconds : Int) (lo hi : Nat) (h : hi ≤ times.size) : Nat :=
  if hlt : lo < hi then
    let mid := (lo + hi) / 2
    have hmid : lo ≤ mid ∧ mid < hi := by omega
    if seconds < times[mid] then countUpTo times seconds lo mid (by omega)
    else countUpTo times seconds (mid + 1) hi h
  else lo
termination_by hi - lo

theorem countUpTo_le (times : Array Int) (seconds : Int) (lo hi : Nat) (h : hi ≤ times.size)
    (hle : lo ≤ hi) : countUpTo times seconds lo hi h ≤ hi := by
  fun_induction countUpTo times seconds lo hi h with
  | case1 lo hi h hlt mid hmid hs ih => exact Nat.le_trans (ih (by omega)) (by omega)
  | case2 lo hi h hlt mid hmid hs ih => exact ih (by omega)
  | case3 => omega

/-- The number of times up to and including the given second. -/
def position (x : ZoneIndex) (seconds : Int) : Nat :=
  countUpTo x.times seconds 0 x.times.size (Nat.le_refl _)

theorem position_le (x : ZoneIndex) (seconds : Int) : x.position seconds ≤ x.times.size :=
  countUpTo_le _ _ _ _ _ (Nat.zero_le _)

def periodAt (x : ZoneIndex) (seconds : Int) : Period :=
  have := x.position_le seconds
  have := x.size_periods
  x.periods[x.position seconds]

/-- The change at a position of the index. -/
def change (x : ZoneIndex) (i : Nat) (h : i < x.times.size) : Change :=
  have := x.size_periods
  { time := x.times[i], before := x.periods[i], after := x.periods[i + 1] }

/-- The changes after `lo` up to and including `hi`, by ascending time. -/
def changesBetween (x : ZoneIndex) (lo hi : Int) : List Change :=
  let start := x.position lo
  let stop := x.position hi
  (List.range' start (stop - start)).filterMap fun i =>
    if h : i < x.times.size then some (x.change i h) else none

end ZoneIndex

/-- A table that is ready to be asked. -/
inductive Lookup where
  | indexed (index : ZoneIndex)
  | direct (zone : Zone)

namespace Lookup

def periodAt : Lookup → Int → Period
  | indexed x => x.periodAt
  | direct z => z.periodAt

def changesBetween : Lookup → Int → Int → List Change
  | indexed x => x.changesBetween
  | direct z => z.changesBetween

/-- Bisection where the table allows it. -/
def ofZone (z : Zone) : Lookup :=
  match ZoneIndex.ofZone? z with
  | some x => indexed x
  | none => direct z

end Lookup

end CivilTime
