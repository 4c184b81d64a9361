import SnippetGrowth.Program.Script.Grammar

/-!
Arguments, decorators, binding patterns and parameters.
-/

namespace SnippetGrowth.Script

open Reader

namespace Grammar

variable (g : Grammar)

def expression : Reader Node := g.read (.expression true)

def assignment : Reader Node := g.read (.assignment true true)

def spreadable : Reader Node := do
  if ← mark? "..." then return node "spread_element" [← g.assignment]
  g.assignment

def arguments : Reader Node := do
  mark "("
  return node "arguments" (← listed g.spreadable ")" g.bound)

def decoratorCall : Nat → Node → Reader Node
  | 0, target => return target
  | bound + 1, target => do
      if ← mark? "." then
        let property ← anyName
        decoratorCall bound
          (node "member_expression" [target, leaf "property_identifier" property])
      else if ← atMark "(" then
        let arguments ← g.arguments
        decoratorCall bound (node "call_expression"
          [labelled "function" target, labelled "arguments" arguments])
      else return target

def decorator? : Reader (Option Node) := do
  if !(← mark? "@") then return none
  if ← mark? "(" then
    let inner ← g.expression
    mark ")"
    return some (node "decorator" [inner])
  return some (node "decorator" [← g.decoratorCall g.bound (← identifier)])

def decorators : Reader (List Node) := repeated g.decorator? g.bound

def annotation : Reader (List Node) := do
  if ← mark? ":" then return [node "type_annotation" [← g.read .type]]
  return []

def initializer (allowIn : Bool) : Reader (List Node) := do
  if ← mark? "=" then
    return [labelled "value" (← g.read (.assignment allowIn true))]
  return []

def propertyName : Reader Node := do
  match ← token with
  | .name word =>
      let _ ← advance
      return leaf "property_identifier" word
  | .privateName word =>
      let _ ← advance
      return leaf "private_property_identifier" word
  | .quoted =>
      let _ ← advance
      return node "string"
  | .number text =>
      let _ ← advance
      return leaf "number" text
  | .mark "[" =>
      let _ ← advance
      let inner ← g.assignment
      mark "]"
      return node "computed_property_name" [inner]
  | _ => fail

/-! ## Patterns -/

def patternWithDefault : Reader Node := do
  let target ← g.read .pattern
  match ← g.initializer true with
  | [] => return target
  | value => return node "assignment_pattern" (target :: value)

def arrayElement : Reader Node := do
  if ← atMark "," then return node "hole"
  if ← mark? "..." then return node "rest_pattern" [← g.read .pattern]
  g.patternWithDefault

def objectElement : Reader Node := do
  if ← mark? "..." then return node "rest_pattern" [← g.read .pattern]
  let (following, _) ← second
  if (← atName) && following ≠ .mark ":" then g.patternWithDefault
  else
    let key ← g.propertyName
    mark ":"
    return node "pair_pattern" [key, ← g.patternWithDefault]

def patternRule : Reader Node := do
  if ← mark? "[" then
    return node "array_pattern" (← listed g.arrayElement "]" g.bound)
  if ← mark? "\x7b" then
    return node "object_pattern" (← listed g.objectElement "\x7d" g.bound)
  identifier

/-! ## Parameters -/

def parameterModifiers : List String :=
  ["public", "private", "protected", "readonly", "override"]

def startsPattern : Token → Bool
  | .name _ => true
  | .mark sign => sign = "[" || sign = "\x7b"
  | _ => false

def parameterModifier? : Reader (Option Unit) := do
  match ← token with
  | .name word =>
      if parameterModifiers.contains word && startsPattern (← second).1 then
        let _ ← advance
        return some ()
      return none
  | _ => return none

def parameter : Reader Node := do
  let decorators ← g.decorators
  let _ ← repeated parameterModifier? g.bound
  if ← word? "this" then
    return node "required_parameter" (decorators ++ (← g.annotation))
  let rest ← mark? "..."
  let target ← g.read .pattern
  let _ ← mark? "?"
  let annotation ← g.annotation
  let value ← if rest then pure [] else g.initializer true
  return node "required_parameter" (decorators ++ target :: annotation ++ value)

def parameters : Reader Node := do
  mark "("
  return node "formal_parameters" (← listed g.parameter ")" g.bound)

end Grammar

end SnippetGrowth.Script
