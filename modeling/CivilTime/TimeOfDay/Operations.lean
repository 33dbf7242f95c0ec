/- Checked times of day, and arithmetic within one day. -/
import CivilTime.Duration.Operations

namespace CivilTime.TimeOfDay

/-- Clock fields run from 0 to the highest value of their kind. -/
def checkField (field : ClockField) (n : Int) : Except Fault Unit :=
  if 0 ≤ n ∧ n ≤ field.highest then .ok () else .error (.clockFieldRange field n)

/-- An integer, or the complaint that the field is none. -/
def integerField (field : ClockField) (d : Datum) : Except Fault Int :=
  match d.int? with
  | some n => .ok n
  | none => .error (.clockFieldNotInteger field d)

/-- The time a given number of nanoseconds after midnight, or the given complaint. -/
def timeAt (nanos : Int) (outside : Fault) : Except Fault TimeOfDay :=
  match ofNanos? nanos with
  | some t => .ok t
  | none => .error outside

/-- The time a given number of nanoseconds after midnight. -/
def ofNanos (nanos : Int) : Except Fault TimeOfDay := timeAt nanos (.dayNanosRange nanos)

def ofNanosField (d : Datum) : Except Fault TimeOfDay :=
  match d.int? with
  | some n => ofNanos n
  | none => .error (.dayNanosNotInteger d)

/-- Nanoseconds after midnight of clock fields. -/
def nanosOfClock (hour minute second nanosecond : Int) : Int :=
  hour * nanosPerHour + minute * nanosPerMinute + second * nanosPerSecond + nanosecond

/-- The time of an hour, minute, second and nanosecond, judged in this order. -/
def ofClock (hour minute second nanosecond : Int) : Except Fault TimeOfDay := do
  checkField .hour hour
  checkField .minute minute
  checkField .second second
  checkField .nanosecond nanosecond
  ofNanos (nanosOfClock hour minute second nanosecond)

/-- The same with fields that need not be integers. Each is judged before the next one is looked at. -/
def ofFields (hour minute second nanosecond : Datum) : Except Fault TimeOfDay := do
  let hour ← integerField .hour hour
  checkField .hour hour
  let minute ← integerField .minute minute
  checkField .minute minute
  let second ← integerField .second second
  checkField .second second
  let nanosecond ← integerField .nanosecond nanosecond
  checkField .nanosecond nanosecond
  ofNanos (nanosOfClock hour minute second nanosecond)

theorem ofFields_int (hour minute second nanosecond : Int) :
    ofFields (.int hour) (.int minute) (.int second) (.int nanosecond) =
      ofClock hour minute second nanosecond := rfl

/-- Only an exact duration can be added, and only within the day. -/
def add (t : TimeOfDay) (d : Duration) : Except Fault TimeOfDay :=
  if d.hasDatePart then .error (.datePartForTime d)
  else timeAt (t.nanos + d.nanos) (.timeOverflow t d)

def subtract (t : TimeOfDay) (d : Duration) : Except Fault TimeOfDay := t.add (-d)

def diff (a b : TimeOfDay) : Except Fault Duration := Duration.ofNanos (a.nanos - b.nanos)

def replace (t : TimeOfDay) (hour minute second nanosecond : Option Datum) :
    Except Fault TimeOfDay :=
  ofFields (hour.getD (.int t.hour)) (minute.getD (.int t.minute)) (second.getD (.int t.second))
    (nanosecond.getD (.int t.nanosecond))

end CivilTime.TimeOfDay
