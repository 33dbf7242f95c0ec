/- Values as they come from outside, before anything is known about them. -/
import CivilTime.Text.Shortest

namespace CivilTime

/-- An unchecked value. Fields of a record keep the order in which they were given. -/
inductive Datum where
  | null
  | bool (b : Bool)
  | int (n : Int)
  | fractional (x : Text.Binary64)
  | text (s : String)
  | list (items : List Datum)
  | record (fields : List (String × Datum))
  deriving Repr, Inhabited

namespace Datum

/-- The word for the kind of value in messages. -/
def kindName : Datum → String
  | null => "NoneType"
  | bool _ => "bool"
  | int _ => "int"
  | fractional _ => "float"
  | text _ => "str"
  | list _ => "list"
  | record _ => "dict"

/-- Only an integer is one: neither a truth value nor a number with a fraction counts. -/
def int? : Datum → Option Int
  | int n => some n
  | _ => none

def text? : Datum → Option String
  | text s => some s
  | _ => none

/-- Lists and records are made of other values. -/
def isCompound : Datum → Bool
  | list _ | record _ => true
  | _ => false

/-- Nothing, zero and whatever is empty count as not given. -/
def isGiven : Datum → Bool
  | null => false
  | bool b => b
  | int n => n != 0
  | fractional x => !x.isZero
  | text s => s != ""
  | list items => !items.isEmpty
  | record fields => !fields.isEmpty

/-- The field of a record by name. -/
def field? (name : String) : Datum → Option Datum
  | record fields => (fields.find? (fun f => f.1 == name)).map (·.2)
  | _ => none

end Datum

end CivilTime
