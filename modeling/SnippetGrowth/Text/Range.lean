/-!
Classes of characters given by ranges of code points.  A range holds both of
its ends; the tables that use it list their ranges in ascending order.
-/

namespace SnippetGrowth.Text

abbrev CodeRange := Nat × Nat

def inRanges (table : List CodeRange) (code : Nat) : Bool :=
  table.any fun (low, high) => low ≤ code && code ≤ high

end SnippetGrowth.Text
