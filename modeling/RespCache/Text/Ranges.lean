/-!
Sets of code points, given by the first and the last of each range.
-/

namespace RespCache.Text

/-- Whether a number lies in one of the ranges, ends included. -/
def inRanges (ranges : List (Nat × Nat)) (n : Nat) : Bool :=
  ranges.any fun r => r.1 ≤ n && n ≤ r.2

end RespCache.Text
