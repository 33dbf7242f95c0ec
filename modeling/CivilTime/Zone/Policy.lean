/- What to do with a wall-clock time that a zone shows twice or not at all. -/
namespace CivilTime

/-- For a time that is shown more than once: which occurrence is meant. -/
inductive FoldPolicy where
  | earlier | later | compatible | reject
  deriving DecidableEq, Repr

namespace FoldPolicy

def all : List FoldPolicy := [earlier, later, compatible, reject]

def name : FoldPolicy → String
  | earlier => "earlier"
  | later => "later"
  | compatible => "compatible"
  | reject => "reject"

def prefersEarlier : FoldPolicy → Bool
  | earlier | compatible => true
  | later | reject => false

end FoldPolicy

/-- For a time that is never shown: whether to take the time as far past the transition as this one
lies past the last time shown before it. -/
inductive GapPolicy where
  | shiftForward | reject
  deriving DecidableEq, Repr

namespace GapPolicy

def all : List GapPolicy := [shiftForward, reject]

def name : GapPolicy → String
  | shiftForward => "shift-forward"
  | reject => "reject"

end GapPolicy

end CivilTime
