/-!
Sets of code points written as lists of inclusive ranges.
-/
namespace ShapeQuery.Text

abbrev Ranges := List (Nat × Nat)

/-- Membership of a code point in one of the ranges. -/
def Ranges.contains (ranges : Ranges) (code : Nat) : Bool :=
  ranges.any fun range => range.1 ≤ code && code ≤ range.2

end ShapeQuery.Text
