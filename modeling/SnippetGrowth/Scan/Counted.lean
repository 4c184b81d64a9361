import SnippetGrowth.Scan.CallSites

/-!
Scanning by counted loops, for snippets in the manner of Pascal.  Letters
count in any case.

A counted loop is `for`, a variable, `:=`, and then, without a semicolon
between, `to` and `do`, each after at least one character.  It extends to the
last `do` before the next semicolon.
-/

namespace SnippetGrowth.Scan

open Text

def functionStyle : CallStyle where
  anyCase := true
  keyword := "function"
  divider := "div"

def afterLast? (marker : List Char) : List Char → Option (List Char)
  | [] => none
  | c :: rest =>
      match afterLast? marker rest with
      | some found => some found
      | none => afterAnyCase? marker (c :: rest)

/-- What follows the last `do` of the bounds of a loop; `to` stands somewhere
before it, and at least one character before each of the two. The first `to`
decides, since it has the most text after it. -/
def afterBounds? : List Char → Option (List Char)
  | [] => none
  | _ :: rest =>
      match afterAnyCase? "to".toList rest with
      | some after => afterLast? "do".toList (after.drop 1)
      | none => afterBounds? rest

def countedLoop? : Recogniser Unit := fun _ text => do
  let (_, rest) ← ((afterAnyCase? "for".toList text).bind dropBlanks?).bind word?
  let rest ← after? [':', '='] (dropBlanks rest)
  let (bounds, following) := rest.span (· != ';')
  let tail ← afterBounds? bounds
  some ((), tail ++ following)

def functionHeader? : Recogniser (List Char) := fun _ text => do
  let (name, rest)
    ← ((afterAnyCase? "function".toList text).bind dropBlanks?).bind word?
  let (_, rest) ← parenthesized? rest
  let rest ← after? [':'] (dropBlanks rest)
  let (_, rest) ← word? (dropBlanks rest)
  some (name, rest)

def countedLoop : Observation where
  finding :=
    ⟨Finding.forLoop, "Pascal for loop with linear iterations",
    .ofExpression "n"⟩

def scanCounted (code : List Char) : Except Failure Report := do
  let loops := (allMatches countedLoop? code).map fun _ => countedLoop
  let functions ← (allMatches functionHeader? code).mapM
    (ofFunction functionStyle code)
  .ok (.ofObservations (loops ++ functions))

end SnippetGrowth.Scan
