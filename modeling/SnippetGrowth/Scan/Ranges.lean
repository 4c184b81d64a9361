import SnippetGrowth.Scan.CallSites

/-!
Scanning by loops over ranges, for snippets in the manner of Python.

Findings come in four passes: permutations of an imported module, loops over a
range, nested loops, and function definitions.  Nesting is judged by one
counter over the lines: a line that starts with `for` opens a level, and only
one that starts with a closing brace closes it.
-/

namespace SnippetGrowth.Scan

open Text

def definitionStyle : CallStyle where
  anyCase := false
  keyword := "def"
  divider := "/"

def usesPermutations (code : List Char) : Bool :=
  (occursIn "import itertools".toList code ||
    occursIn "from itertools import".toList code) &&
    occursIn "permutations".toList code

def rangeLoop? : Recogniser (List Char) := fun _ text => do
  let (_, rest) ← ((after? "for".toList text).bind dropBlanks?).bind word?
  let rest ← (dropBlanks? rest).bind (after? "in".toList)
  let rest ← (dropBlanks? rest).bind (after? "range".toList)
  let (inside, rest) ← parenthesized? rest
  if inside.isEmpty then none else some (passed text rest, rest)

/-- The argument text of a range, up to the first `)` or the end. -/
def rangeArguments? : Recogniser (List Char) := fun _ text => do
  let rest ← after? "range".toList text
  let rest ← after? ['('] (dropBlanks rest)
  some (rest.span (· != ')'))

/-- Whether the first range of a loop has a third argument that multiplies or
divides. -/
def hasMultiplicativeStep (loop : List Char) : Bool :=
  match (firstMatch? rangeArguments? loop).map (split ',') with
  | some (_ :: _ :: step :: _) => step.contains '*' || step.contains '/'
  | _ => false

def definition? : Recogniser (List Char) := fun _ text => do
  let (name, rest) ← ((after? "def".toList text).bind dropBlanks?).bind word?
  let (_, rest) ← parenthesized? rest
  let rest := dropBlanks rest
  let rest :=
    match after? ['-', '>'] rest with
    | some type =>
        match type.span (· != ':') with
        | ([], _) => rest
        | (_, rest) => rest
    | none => rest
  let rest ← after? [':'] rest
  some (name, rest)

def permutations : Observation where
  finding :=
    ⟨Finding.permutations,
      "Generation of all permutations using itertools.permutations",
      .ofExpression "n!"⟩
  space := some (.ofExpression "n!")

def ofRangeLoop (loop : List Char) : Observation where
  finding :=
    if hasMultiplicativeStep loop then
      ⟨Finding.forLoop, "Logarithmic loop with multiplicative step",
        .ofExpression "log n"⟩
    else ⟨Finding.forLoop, "Python for loop with range(n)", .ofExpression "n"⟩

def nestedLoop : Observation where
  finding :=
    ⟨Finding.nestedLoops, "Nested loops creating quadratic complexity",
      .ofExpression "n²"⟩

/-- How many lines open a level that is not the first, from a given depth on. -/
def deepLines : Int → List (List Char) → Nat
  | _, [] => 0
  | depth, line :: rest =>
      if (after? "for".toList (strip line)).isSome then
        (if 2 ≤ depth + 1 then 1 else 0) + deepLines (depth + 1) rest
      else if (strip line).head? = some '\x7d' then deepLines (depth - 1) rest
      else deepLines depth rest

def scanRanges (code : List Char) : Except Failure Report := do
  let imported := if usesPermutations code then [permutations] else []
  let loops := (allMatches rangeLoop? code).map ofRangeLoop
  let nested := List.replicate (deepLines 0 (lines code)) nestedLoop
  let functions ← (allMatches definition? code).mapM
    (ofFunction definitionStyle code)
  .ok (.ofObservations (imported ++ loops ++ nested ++ functions))

end SnippetGrowth.Scan
