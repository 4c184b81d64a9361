import SnippetGrowth.Bound

/-!
Divide-and-conquer recurrences `T(n) = a * T(n / b) + f(n)`.

The critical exponent is the logarithm of the branching factor to the base of
the reduction factor.  With constant extra work a positive exponent decides
the growth and any other one leaves a logarithm; with linear extra work an
exponent below one leaves linear growth; with any other extra work the
exponent always decides.  The balanced case has no rule of its own.
-/

namespace SnippetGrowth

inductive ExtraWork where
  | constant
  | linear
  deriving DecidableEq, Repr

namespace ExtraWork

def text : ExtraWork → String
  | constant => "O(1)"
  | linear => "O(n)"

def ofText? (text : String) : Option ExtraWork :=
  if text = constant.text then some constant
  else if text = linear.text then some linear
  else none

theorem ofText?_text (work : ExtraWork) : ofText? work.text = some work := by
  cases work <;> decide

def ofText (text : String) : Except Failure ExtraWork :=
  match ofText? text with
  | some work => .ok work
  | none => .error (.unknownWork text)

end ExtraWork

/-- The parameters of a recurrence: how many recursive calls, what divides their
input, and the work of one call. -/
structure Recurrence where
  branching : Number
  reduction : Number
  extraWork : ExtraWork := .constant
  deriving DecidableEq, Repr

/-- The quotient of the logarithms of the two factors. Where the lower one is
zero, the upper one decides between an infinity of its sign and no number. -/
def criticalExponent (branching reduction : Number) : Double :=
  let upper := branching.ln
  let lower := reduction.ln
  if lower.isZero then
    if upper.isZero || upper.isNan then .nan else .infinite upper.isNegative
  else upper.div lower

def powerBound (exponent : Double) : Bound :=
  Bound.ofExpression ("n^" ++ exponent.fixedText 4)

def growthOf (exponent : Double) : Option ExtraWork → Bound
  | some .constant =>
      if exponent.isPositive then powerBound exponent
        else Bound.ofExpression "log n"
  | some .linear =>
      if exponent.lt .one then Bound.ofExpression "n" else powerBound exponent
  | none => powerBound exponent

def solveRecurrence (branching reduction : Number) (work : String) : Bound :=
  growthOf (criticalExponent branching reduction) (ExtraWork.ofText? work)

def Recurrence.solution (r : Recurrence) : Bound :=
  growthOf (criticalExponent r.branching r.reduction) (some r.extraWork)

end SnippetGrowth
