/-! Sets of code points as ascending lists of disjoint intervals. A search stops at the first interval
that does not end before the code point. -/

namespace CantoScan.Unicode

/-- The first and the last code point of a run. -/
abbrev Interval := Nat × Nat

def covers : List Interval → Nat → Bool
  | [], _ => false
  | (first, last) :: rest, point => if point ≤ last then decide (first ≤ point) else covers rest point

end CantoScan.Unicode
