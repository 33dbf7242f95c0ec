/- The seven days of the week, in the ISO order that starts with Monday. -/
namespace CivilTime

inductive Weekday where
  | monday | tuesday | wednesday | thursday | friday | saturday | sunday
  deriving DecidableEq, Repr

namespace Weekday

/-- All days, in order. -/
def all : List Weekday :=
  [monday, tuesday, wednesday, thursday, friday, saturday, sunday]

/-- The ISO number, from 1. -/
def number : Weekday → Int
  | monday => 1
  | tuesday => 2
  | wednesday => 3
  | thursday => 4
  | friday => 5
  | saturday => 6
  | sunday => 7

def ofNumber? (n : Int) : Option Weekday :=
  all.find? (fun w => w.number == n)

theorem ofNumber?_number (w : Weekday) : ofNumber? w.number = some w := by
  cases w <;> rfl

/-- The day of the week of a numbered day: day number 0 is a Monday. -/
def ofDayNumber (dayNumber : Int) : Weekday :=
  match dayNumber % 7 with
  | 0 => monday
  | 1 => tuesday
  | 2 => wednesday
  | 3 => thursday
  | 4 => friday
  | 5 => saturday
  | _ => sunday

def name : Weekday → String
  | monday => "Monday"
  | tuesday => "Tuesday"
  | wednesday => "Wednesday"
  | thursday => "Thursday"
  | friday => "Friday"
  | saturday => "Saturday"
  | sunday => "Sunday"

def shortName : Weekday → String
  | monday => "Mon"
  | tuesday => "Tue"
  | wednesday => "Wed"
  | thursday => "Thu"
  | friday => "Fri"
  | saturday => "Sat"
  | sunday => "Sun"

def isWeekend : Weekday → Bool
  | saturday | sunday => true
  | _ => false

end Weekday

end CivilTime
