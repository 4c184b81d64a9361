import SnippetGrowth.Report
import SnippetGrowth.Scan.Matches

/-!
Scanning by loop headers, for snippets in the manner of C.

A header is a keyword, optional blanks and a non-empty text in parentheses
that ends at the first closing one.  Nesting is judged for the whole snippet
by one counter over its lines: a line that mentions a loop keyword opens a
level, any other line with a closing brace closes one.
-/

namespace SnippetGrowth.Scan

open Text

def header? (keyword : String) : Recogniser (List Char) := fun _ text => do
  let (inside, rest) ← (after? keyword.toList text).bind parenthesized?
  if inside.isEmpty then none else some (passed text rest, rest)

def headers (keyword : String) (code : List Char) : List (List Char) :=
  allMatches (header? keyword) code

/-- The third clause of the text in parentheses, or all of it if there are fewer. -/
def updateClause (inside : List Char) : List Char :=
  match split ';' inside with
  | _ :: _ :: update :: _ => update
  | _ => inside

def multiplies (text : List Char) : Bool := text.contains '*' || text.contains '/'

def afterParenthesis? : List Char → Option (List Char)
  | [] => none
  | c :: rest => if c = '(' then some rest else afterParenthesis? rest

def isMultiplicativeUpdate (header : List Char) : Except Failure Bool :=
  match afterParenthesis? header with
  | none => .error .noParenthesis
  | some inside => .ok (multiplies (updateClause inside.dropLast))

def opensLevel (line : List Char) : Bool :=
  occursIn "for".toList line || occursIn "while".toList line

def closesLevel (line : List Char) : Bool :=
  !opensLevel line && line.contains '\x7d'

/-- Whether the counter, from a given depth on, reaches the threshold at a line
that opens. -/
def nestingReachedFrom (threshold : Int) : Int → List (List Char) → Bool
  | _, [] => false
  | depth, line :: rest =>
      if opensLevel line then
        threshold ≤ depth + 1 || nestingReachedFrom threshold (depth + 1) rest
      else if closesLevel line then nestingReachedFrom threshold (depth - 1) rest
      else nestingReachedFrom threshold depth rest

def nestingReached (lines : List (List Char)) (threshold : Int := 2) : Bool :=
  nestingReachedFrom threshold 0 lines

def nestedHeader : Observation where
  finding :=
    ⟨Finding.forLoop, "Nested loop structure (outer logarithmic, inner linear)",
      .ofExpression "n log n"⟩

def logarithmicHeader : Observation where
  finding :=
    ⟨Finding.forLoop, "Logarithmic for loop (multiplicative update)",
      .ofExpression "log n"⟩

def linearHeader : Observation where
  finding := ⟨Finding.forLoop, "Linear for loop", .ofExpression "n"⟩

def whileHeader : Observation where
  finding :=
    ⟨Finding.whileLoop, "C while loop with linear iterations",
    .ofExpression "n"⟩

def ofHeader (nested : Bool) (header : List Char) : Except Failure Observation :=
  if nested then .ok nestedHeader
  else (isMultiplicativeUpdate header).map fun multiplicative =>
    if multiplicative then logarithmicHeader else linearHeader

def scanHeaders (code : List Char) : Except Failure Report := do
  let nested := nestingReached (lines code)
  let loops ← (headers "for" code).mapM (ofHeader nested)
  let whiles := (headers "while" code).map fun _ => whileHeader
  .ok (.ofObservations (loops ++ whiles))

end SnippetGrowth.Scan
