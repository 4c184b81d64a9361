import SnippetGrowth.Numeral
import SnippetGrowth.Report
import SnippetGrowth.Tree.Basic

/-!
Scanning by syntax tree, for scripts.

Every node is visited once, in source order.  A classic `for` statement and a
`while` statement each give a finding.  So does a function declaration that
calls itself by its bare name somewhere in its subtree: the calls are the
branches, the last call whose first argument is a division by a numeric
literal gives the reduction factor, and any arithmetic, comparison or bitwise
expression in the subtree makes the extra work linear.
-/

namespace SnippetGrowth.Scan

def logicalOperators : List String := ["&&", "||", "??"]

def isBinary (node : Node) : Bool :=
  node.kind = "binary_expression" && !node.operator?.any logicalOperators.contains

def isDeclaration (node : Node) : Bool :=
  node.kind = "function_declaration" ||
    node.kind = "generator_function_declaration"

/-- The literal that the first argument of a call is divided by. -/
def divisorNode? (call : Node) : Option Node := do
  let arguments ← call.child? "arguments"
  let first ← arguments.operands.head?
  let dividend := first.unwrapped
  if isBinary dividend && dividend.operator? = some "/" then
    let right := (← dividend.child? "right").unwrapped
    if right.kind = "number" then some right else none
  else none

def divisor (call : Node) : Except Failure (Option Number) :=
  match divisorNode? call with
  | some literal => scriptNumeral literal.text
  | none => .ok none

def isCallOf (name : String) (node : Node) : Bool :=
  node.kind = "call_expression" &&
    (node.child? "function").any (·.isIdentifier name)

def selfCalls (name : String) (declaration : Node) : List Node :=
  declaration.walk.filter (isCallOf name)

def declaredRecurrence? (declaration : Node) :
    Except Failure (Option Recurrence) :=
  match declaration.child? "name" with
  | none => .ok none
  | some name => do
      let calls := selfCalls name.text declaration
      let divisors ← calls.mapM divisor
      if calls.isEmpty then .ok none
      else
        .ok (some {
          branching := .whole calls.length
          reduction := ((divisors.filterMap id).getLast?).getD (.whole 1)
          extraWork := if declaration.walk.any isBinary then .linear
            else .constant })

def ofDeclaration (declaration : Node) : Except Failure (List Observation) := do
  match ← declaredRecurrence? declaration with
  | none => .ok []
  | some recurrence =>
      let branching ← recurrence.branching.text
      let reduction ← recurrence.reduction.text
      let rationale :=
        "Recursive function with " ++ branching ++ " calls, n/" ++ reduction ++
        " reduction, " ++ recurrence.extraWork.text ++ " extra work"
      .ok [⟨⟨Finding.recursiveFunction, rationale, recurrence.solution⟩,
        some (recursionSpace reduction)⟩]

def scalingOperators : List String := ["*=", "/="]

def ofFor (loop : Node) : Observation where
  finding :=
    match (loop.child? "increment").map Node.unwrapped with
    | none => standard
    | some update =>
        match update.kind, update.operator? with
        | "update_expression", some "++" =>
            ⟨Finding.forLoop, "Linear loop: i++", .ofExpression "n"⟩
        | "augmented_assignment_expression", some operator =>
            if scalingOperators.contains operator then
              ⟨Finding.forLoop, "Logarithmic loop: i " ++ operator ++ " constant",
                .ofExpression "log n"⟩
            else standard
        | _, _ => standard
where
  standard : Finding := ⟨Finding.forLoop, "Standard for loop", .ofExpression "n"⟩

def whileStatement : Observation where
  finding :=
    ⟨Finding.whileLoop, "While loop with potentially n iterations",
    .ofExpression "n"⟩

def ofNode (node : Node) : Except Failure (List Observation) :=
  if node.kind = "for_statement" then .ok [ofFor node]
  else if node.kind = "while_statement" then .ok [whileStatement]
  else if isDeclaration node then ofDeclaration node
  else .ok []

def scanTree (tree : Tree) : Except Failure Report :=
  match tree.firstError with
  | some description =>
      .ok (.ofError ("JavaScript parsing error: Syntax error: " ++ description))
  | none => do
      let observations ← tree.root.walk.mapM ofNode
      .ok (.ofObservations observations.flatten)

end SnippetGrowth.Scan
