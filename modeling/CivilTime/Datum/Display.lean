/- How messages show an unchecked value. -/
import CivilTime.Datum
import CivilTime.Text.Quoted

namespace CivilTime.Datum

mutual

/-- Texts stand between quotes, the parts of a compound value in brackets with commas between. -/
def display : Datum → String
  | null => "None"
  | bool true => "True"
  | bool false => "False"
  | int n => Text.integer n
  | fractional x => x.text
  | text s => Text.quoted s
  | list items => "[" ++ ", ".intercalate (displayItems items) ++ "]"
  | record fields => "\x7b" ++ ", ".intercalate (displayFields fields) ++ "\x7d"

def displayItems : List Datum → List String
  | [] => []
  | d :: r => d.display :: displayItems r

def displayFields : List (String × Datum) → List String
  | [] => []
  | (name, d) :: r => (Text.quoted name ++ ": " ++ d.display) :: displayFields r

end

mutual

/-- The integers that `display` writes out. -/
def integers : Datum → List Int
  | int n => [n]
  | list items => integersOfItems items
  | record fields => integersOfFields fields
  | _ => []

def integersOfItems : List Datum → List Int
  | [] => []
  | d :: r => d.integers ++ integersOfItems r

def integersOfFields : List (String × Datum) → List Int
  | [] => []
  | (_, d) :: r => d.integers ++ integersOfFields r

end

/-- A text as it is, anything else as `display` shows it. -/
def plain : Datum → String
  | text s => s
  | d => d.display

end CivilTime.Datum
