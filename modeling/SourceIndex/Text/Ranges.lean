/-!
# Ranges of characters

Properties of characters that follow no rule are given by the ranges of code points that have
them, in ascending order. The tables of this library are those of Unicode 17.
-/

namespace SourceIndex.Text

/-- The first and the last code point of each range. -/
abbrev Ranges := List (Nat × Nat)

/-- Whether a character is in one of the ranges. -/
def Ranges.contains (ranges : Ranges) (c : Char) : Bool :=
  ranges.any fun (first, last) => first ≤ c.toNat && c.toNat ≤ last

end SourceIndex.Text
