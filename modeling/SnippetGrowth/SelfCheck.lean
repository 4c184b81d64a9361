import SnippetGrowth.Analysis

/-!
The self-check: reference snippets whose growth is known, and whether the
analysis of each one shows it.
-/

namespace SnippetGrowth.SelfCheck

structure Reference where
  name : String
  code : String
  expected : String

structure Outcome where
  name : String
  expected : String
  actual : String
  passed : Bool
  deriving DecidableEq, Repr

def recursion : Reference where
  name := "Python Recursion"
  code := "def proc(n):
    if n<=1:
        return 1
    else:
        return proc(n/3) + n + proc(n/3)"
  expected := "O(n^0.6309)"

def nestedLoops : Reference where
  name := "C Nested Loops"
  code := "#include <stdio.h>
int main() \x7b
    for(i=1; i <=n ; i=i*3)
    \x7b
        j=n;
        while(j>=1)
        \x7b
             j=j-2;
        \x7d
    \x7d
\x7d"
  expected := "O(n log n)"

def permutations : Reference where
  name := "Python Permutations"
  code := "import itertools

def example_function(n):
    for i in range(n):
        for j in range(n):
            _ = i + j
    permutations = list(itertools.permutations(range(n)))
    for p in permutations:
        _ = sum(p)"
  expected := "O(n!)"

def references : List Reference := [recursion, nestedLoops, permutations]

def Reference.outcome (parse : Parser) (reference : Reference) :
    Except Failure Outcome := do
  let actual := (← analyze parse reference.code).time.upperBound
  .ok ⟨reference.name, reference.expected, actual,
    Text.occursIn reference.expected.toList actual.toList⟩

def outcomes (parse : Parser) : Except Failure (List Outcome) :=
  references.mapM (Reference.outcome parse)

def countPassed (outcomes : List Outcome) : Nat := outcomes.countP (·.passed)

end SnippetGrowth.SelfCheck
