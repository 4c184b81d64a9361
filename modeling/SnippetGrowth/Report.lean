import SnippetGrowth.Recurrence

/-!
What a scan of a snippet reports: findings in scan order, the space bound, and
an error where the snippet could not be scanned at all.
-/

namespace SnippetGrowth

structure Finding where
  construct : String
  rationale : String
  result : Bound
  deriving DecidableEq, Repr

namespace Finding

def forLoop : String := "For Loop"

def whileLoop : String := "While Loop"

def nestedLoops : String := "Nested For Loops"

def permutations : String := "Permutations"

def recursiveFunction : String := "Recursive Function"

end Finding

/-- A finding with the space bound that it entails, if it entails one. -/
structure Observation where
  finding : Finding
  space : Option Bound := none
  deriving DecidableEq, Repr

structure Report where
  findings : List Finding := []
  space : Bound := .constant
  error : Option String := none
  deriving DecidableEq, Repr

namespace Report

def time (r : Report) : Bound := Bound.combine (r.findings.map (·.result))

def add (r : Report) (finding : Finding) : Report :=
  { r with findings := r.findings ++ [finding] }

def ofError (message : String) : Report := { error := some message }

/-- The report of observations in order; the last one that entails a space bound
decides it. -/
def ofObservations (observations : List Observation) : Report where
  findings := observations.map (·.finding)
  space := ((observations.filterMap (·.space)).getLast?).getD .constant

end Report

def recursionSpace (reduction : String) : Bound :=
  Bound.ofExpression ("log_" ++ reduction ++ " n")

end SnippetGrowth
