/- Which unchecked values are the same, and which of two comes first. -/
import CivilTime.Datum.Quantity

namespace CivilTime.Datum

mutual

/-- Numbers are the same if they are equal, truth values among them, and compound values if their parts
are. -/
def same : Datum → Datum → Bool
  | null, null => true
  | text s, text t => s == t
  | list a, list b => sameItems a b
  | record a, record b => sameFields a b
  | a, b =>
    match a.quantity?, b.quantity? with
    | some p, some q => p.order q == .eq
    | _, _ => false

def sameItems : List Datum → List Datum → Bool
  | [], [] => true
  | a :: r, b :: t => a.same b && sameItems r t
  | _, _ => false

/-- Fields are compared in the order of their names, in which records list them. -/
def sameFields : List (String × Datum) → List (String × Datum) → Bool
  | [], [] => true
  | (m, a) :: r, (n, b) :: t => m == n && a.same b && sameFields r t
  | _, _ => false

end

theorem same_int (m n : Int) : (int m).same (int n) = decide (m = n) := by
  simp only [same, quantity?, Quantity.order, Quantity.numerator, Quantity.denominator, Int.mul_one]
  by_cases h : m = n
  · simp [h]
  · have := mt Int.compare_eq_eq.mp h
    simp [h, this]

mutual

/-- Numbers and texts have an order, and so have lists as far as their first different items have one. -/
def order? : Datum → Datum → Option Ordering
  | text s, text t => some (compare s t)
  | list a, list b => itemsOrder? a b
  | a, b =>
    match a.quantity?, b.quantity? with
    | some p, some q => some (p.order q)
    | _, _ => none

def itemsOrder? : List Datum → List Datum → Option Ordering
  | [], [] => some .eq
  | [], _ :: _ => some .lt
  | _ :: _, [] => some .gt
  | a :: r, b :: t => if a.same b then itemsOrder? r t else a.order? b

end

end CivilTime.Datum
