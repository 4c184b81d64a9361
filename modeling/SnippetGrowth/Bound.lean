import SnippetGrowth.Number
import SnippetGrowth.Text.Search

/-!
Growth bounds and their dominance order.

A bound shows one growth label in three notations.  Its growth class is read
off the upper notation: it is the class of the first marker, most dominant
first, that stands anywhere in it.  The order of the markers can be seen in
answers: a logarithm without a factor contains `n` and so counts as linear.

`classify` turns a count or an expression into a bound, and `combine` picks
the most dominant of several bounds, the first one among equals.
-/

namespace SnippetGrowth

structure Bound where
  upperBound : String
  tightBound : String
  strictUpperBound : String
  deriving DecidableEq, Repr

namespace Bound

def ofLabel (label : String) : Bound where
  upperBound := "O(" ++ label ++ ")"
  tightBound := "Θ(" ++ label ++ ")"
  strictUpperBound := "o(" ++ label ++ ")"

def label (b : Bound) : String :=
  String.ofList (b.upperBound.toList.drop 2).dropLast

theorem label_ofLabel (s : String) : (ofLabel s).label = s := by
  simp [label, ofLabel, String.toList_append]

def constant : Bound := ofLabel "1"

end Bound

inductive GrowthClass where
  | factorial
  | cubic
  | quadratic
  | linearithmic
  | linear
  | logarithmic
  | constant
  | unranked
  deriving DecidableEq, Repr

namespace GrowthClass

def rank : GrowthClass → Nat
  | factorial => 0
  | cubic => 1
  | quadratic => 2
  | linearithmic => 3
  | linear => 4
  | logarithmic => 5
  | constant => 6
  | unranked => 7

theorem rank_injective {a b : GrowthClass} (h : a.rank = b.rank) : a = b := by
  cases a <;> cases b <;> first | rfl | (simp [rank] at h)

def markers : List (GrowthClass × String) :=
  [(factorial, "n!"), (cubic, "n³"), (quadratic, "n²"), (linearithmic, "n log n"),
    (linear, "n"), (logarithmic, "log n"), (constant, "1")]

def ofText (text : String) : GrowthClass :=
  match markers.find? fun (_, marker) =>
    Text.occursIn marker.toList text.toList with
  | some (growth, _) => growth
  | none => unranked

end GrowthClass

namespace Bound

def growthClass (b : Bound) : GrowthClass := GrowthClass.ofText b.upperBound

def rank (b : Bound) : Nat := b.growthClass.rank

/-- The more dominant of two bounds, the first one if neither is. -/
def dominant (a b : Bound) : Bound := if b.rank < a.rank then b else a

/-- The first of the most dominant bounds; without any, the constant one. -/
def combine : List Bound → Bound
  | [] => constant
  | b :: rest => rest.foldl dominant b

/-- The bound of a growth expression. Anything with a logarithm is kept;
otherwise a square, then a cube, in either spelling is reduced to its power of
`n`, and all else is kept. -/
def ofExpression (expression : String) : Bound :=
  let holds (part : String) := Text.occursIn part.toList expression.toList
  if holds "log" then ofLabel expression
  else if holds "n^2" || holds "n²" then ofLabel "n²"
  else if holds "n^3" || holds "n³" then ofLabel "n³"
  else ofLabel expression

end Bound

inductive Iterations where
  | count (n : Int)
  | expression (text : String)
  | measure (x : Double)
  | flag (value : Bool)
  | absent
  deriving DecidableEq, Repr

/-- The bound of an iteration count. A whole number names itself; everything
else is read as the expression that it is written as. -/
def classify : Iterations → Except Failure Bound
  | .count n => (wholeText n).map Bound.ofLabel
  | .expression text => .ok (Bound.ofExpression text)
  | .measure x => .ok (Bound.ofExpression x.text)
  | .flag value => .ok (Bound.ofExpression (if value then "True" else "False"))
  | .absent => .ok (Bound.ofExpression "None")

end SnippetGrowth
