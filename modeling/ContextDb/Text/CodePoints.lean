/-!
# Character classes given by ranges

A property of characters that is listed, not computed: a table of inclusive
ranges of code points, and membership in it.
-/

namespace ContextDb.Text

/-- Whether a character lies in one of the inclusive ranges of a table. -/
def inRanges (ranges : List (Nat × Nat)) (c : Char) : Bool :=
  ranges.any fun (first, last) => first ≤ c.toNat && c.toNat ≤ last

end ContextDb.Text
