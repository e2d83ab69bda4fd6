/-
# Ranges of code points

A class of characters that follows no simple rule is a table of ranges.
-/

namespace QueryPipeline.Text

/-- The code point lies in one of some inclusive ranges. -/
def inRanges (ranges : List (Nat × Nat)) (c : Char) : Bool :=
  ranges.any fun r => r.1 ≤ c.toNat && c.toNat ≤ r.2

end QueryPipeline.Text
