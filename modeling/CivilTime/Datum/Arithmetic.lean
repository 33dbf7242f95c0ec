/- Sums and products of unchecked values, where there are any. -/
import CivilTime.Datum.Quantity

namespace CivilTime.Datum

/-- Numbers are added, and texts and lists are joined. -/
def plus? : Datum → Datum → Option Datum
  | text s, text t => some (text (s ++ t))
  | list a, list b => some (list (a ++ b))
  | a, b => do
    let p ← a.quantity?
    let q ← b.quantity?
    return (p.add q).toDatum

def minus? (a b : Datum) : Option Datum := do
  let p ← a.quantity?
  let q ← b.quantity?
  return (p.sub q).toDatum

/-- A whole number, for which a truth value counts too. -/
def whole? (d : Datum) : Option Int :=
  match d.quantity? with
  | some (.whole n) => some n
  | _ => none

/-- Numbers are multiplied, and texts and lists are repeated a whole number of times. -/
def times? : Datum → Datum → Option Datum
  | text s, b => b.whole?.map fun n => text (String.join (List.replicate n.toNat s))
  | a, text t => a.whole?.map fun n => text (String.join (List.replicate n.toNat t))
  | list a, b => b.whole?.map fun n => list (List.replicate n.toNat a).flatten
  | a, list b => a.whole?.map fun n => list (List.replicate n.toNat b).flatten
  | a, b => do
    let p ← a.quantity?
    let q ← b.quantity?
    return (p.mul q).toDatum

/-- A multiple by a positive integer. A repeated text or list stands for itself: it keeps its kind and
whether it is empty, and nothing else is asked of it. -/
def multiple? (k : Int) : Datum → Option Datum
  | text s => some (text s)
  | list a => some (list a)
  | d => d.quantity?.map fun q => (q.scale k).toDatum

def negative? (d : Datum) : Option Datum :=
  d.quantity?.map fun q => (q.scale (-1)).toDatum

def magnitude? (d : Datum) : Option Datum :=
  d.quantity?.map fun q => (if q.isNegative then q.scale (-1) else q).toDatum

/-- A number on its own, for which a truth value counts too. -/
def plain? (d : Datum) : Option Datum := d.quantity?.map Quantity.toDatum

end CivilTime.Datum
