import SnippetGrowth.Numeral
import SnippetGrowth.Report
import SnippetGrowth.Scan.Matches
import SnippetGrowth.Text.Fold

/-!
Inferring a recurrence from the call sites of a function.

A site is the function's name at a word boundary with a text in parentheses,
up to the first closing one.  A site divides if that text ends in the
divider, optional blanks and a numeral; the leftmost dividing site gives the
reduction factor.  The sites that do not overlap, less the headers that
declare the function, are counted as branches.  Without a dividing site the
input is not reduced.
-/

namespace SnippetGrowth.Scan

open Text

/-- How a family of languages writes declarations and divisions. -/
structure CallStyle where
  anyCase : Bool
  keyword : String
  divider : String

namespace CallStyle

def after? (style : CallStyle) (marker text : List Char) : Option (List Char) :=
  if style.anyCase then afterAnyCase? marker text else Text.after? marker text

def site? (style : CallStyle) (name : List Char) :
    Recogniser (List Char) := fun previous text =>
  if wordBoundary previous text.head? then
    (style.after? name text).bind parenthesized? else none

def declaration? (style : CallStyle) (name : List Char) :
    Recogniser Unit := fun previous text =>
  if wordBoundary previous text.head? then do
    let rest ← (style.after? style.keyword.toList text).bind dropBlanks?
    let rest ← style.after? name rest
    let rest ← Text.after? ['('] (dropBlanks rest)
    some ((), rest)
  else none

/-- The numeral at the end of an argument, if blanks and the divider come before it. -/
def divisor? (style : CallStyle) (argument : List Char) : Option (List Char) := do
  let (digits, rest) ← run? isDigit argument.reverse
  let _ ← style.after? style.divider.toList.reverse (dropBlanks rest)
  some digits.reverse

def dividingSite? (style : CallStyle) (name : List Char) :
    Recogniser (List Char) :=
  fun previous text => do
    let (argument, rest) ← style.site? name previous text
    let divisor ← style.divisor? argument
    some (divisor, rest)

def infer (style : CallStyle) (code name : List Char) :
    Except Failure Recurrence :=
  match firstMatch? (style.dividingSite? name) code with
  | none => .ok ⟨.whole 1, .whole 1, .constant⟩
  | some divisor => do
      let sites := (allMatches (style.site? name) code).length
      let declarations := (allMatches (style.declaration? name) code).length
      let reduction ← readDigits divisor
      .ok ⟨.whole (max (sites - declarations : Nat) 1), .whole reduction,
        .constant⟩

end CallStyle

def ofFunction (style : CallStyle) (code name : List Char) :
    Except Failure Observation := do
  let recurrence ← style.infer code name
  let branching ← recurrence.branching.text
  let reduction ← recurrence.reduction.text
  let rationale := "Function " ++ String.ofList name ++ " with " ++ branching ++
    " recursive calls, n/" ++ reduction ++ " reduction"
  .ok ⟨⟨Finding.recursiveFunction, rationale, recurrence.solution⟩,
    some (recursionSpace reduction)⟩

end SnippetGrowth.Scan
