/-! Sets of code points, as the tables of a standard write them: closed
intervals, ascending and apart. -/
namespace WrenDocs.Text

/-- Ascending closed intervals of code points. -/
abbrev Ranges := List (Nat × Nat)

/-- Whether a code point lies in one of the intervals. The intervals ascend, so
the search stops at the first one that begins beyond it. -/
def Ranges.contains : Ranges → Nat → Bool
  | [], _ => false
  | (low, high) :: ranges, n =>
    if n < low then false else decide (n ≤ high) || Ranges.contains ranges n

end WrenDocs.Text
