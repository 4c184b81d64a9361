import SnippetGrowth.Program.Script.Annotation

/-!
Functions, classes and object literals.
-/

namespace SnippetGrowth.Script

open Reader

namespace Grammar

variable (g : Grammar)

/-! ## Functions -/

def optionalName : Reader (List Node) := do
  if ← atName then return [labelled "name" (← identifier)]
  return []

def atFunction : Reader Bool := do
  if ← atWord "function" then return true
  let (following, newline) ← second
  return (← atWord "async") && following = .name "function" && !newline

def functionHead : Reader (Bool × List Node) := do
  let _ ← word? "async"
  word "function"
  let generator ← mark? "*"
  return (generator, ← optionalName)

def functionExpression : Reader Node := do
  let (generator, name) ← functionHead
  let signature ← g.signature
  let body ← g.read .block
  let parts := name ++ signature ++ [labelled "body" body]
  return if generator then node "generator_function" parts
    else node "function_expression" parts

/-- A function with a name as a statement; without a body it only states a
signature, and without a name it is an expression. -/
def functionDeclaration : Reader Node := do
  let (generator, name) ← functionHead
  let signature ← g.signature
  if ← atMark "\x7b" then
    let body ← g.read .block
    let parts := name ++ signature ++ [labelled "body" body]
    return match name.isEmpty, generator with
      | false, false => node "function_declaration" parts
      | false, true => node "generator_function_declaration" parts
      | true, false => node "function_expression" parts
      | true, true => node "generator_function" parts
  else
    if name.isEmpty then fail
    semicolon
    return node "function_signature" (name ++ signature)

/-! ## Members -/

def modifierWords : List String :=
  ["static", "public", "private", "protected", "readonly", "abstract",
    "override", "declare", "accessor", "async", "get", "set"]

def modifier? : Reader (Option String) := do
  match ← token with
  | .name word =>
      let (following, newline) ← second
      let named := startsMemberName following || following = .mark "*"
      if modifierWords.contains word && named && !(word = "async" && newline) then
        let _ ← advance
        return some word
      return none
  | _ => return none

def modifiers : Reader Bool := do
  let words ← repeated modifier? g.bound
  let generator ← mark? "*"
  return generator || words.any fun word => word = "async" || word = "get" ||
    word = "set"

def atParameters : Reader Bool := return (← atMark "(") || (← atMark "<")

def method (name : Node) : Reader Node := do
  let signature ← g.signature
  let body ← g.read .block
  return node "method_definition" (labelled "name" name :: signature ++
    [labelled "body" body])

/-! ## Object literals -/

def shorthand (name : Node) : Reader Node := do
  if name.kind ≠ "property_identifier" || isReserved name.text then fail
  if ← atMark "=" then
    let value ← g.initializer true
    return node "object_assignment_pattern"
      (labelled "left" (leaf "shorthand_property_identifier_pattern" name.text) ::
        value)
  return leaf "shorthand_property_identifier" name.text

def objectProperty : Reader Node := do
  if ← mark? "..." then return node "spread_element" [← g.assignment]
  let isMethod ← g.modifiers
  let key ← g.propertyName
  if ← atParameters then g.method key
  else if isMethod then fail
  else if ← mark? ":" then
    return node "pair" [labelled "key" key, labelled "value" (← g.assignment)]
  else g.shorthand key

def object : Reader Node := do
  mark "\x7b"
  return node "object" (← listed g.objectProperty "\x7d" g.bound)

/-! ## Classes -/

def classMember : Reader Node := do
  let decorators ← g.decorators
  if (← atWord "static") && (← second).1 = .mark "\x7b" then
    word "static"
    return node "class_static_block" [← g.read .block]
  let isMethod ← g.modifiers
  let isIndex ← wouldRead do
    mark "["
    let _ ← name
    mark ":"
  if isIndex then
    g.indexMember
    semicolon
    return node "index_signature"
  let key ← g.propertyName
  if !(← mark? "?") then
    let _ ← mark? "!"
  if ← atParameters then
    let signature ← g.signature
    if ← atMark "\x7b" then
      let body ← g.read .block
      return node "method_definition"
        (decorators ++ labelled "name" key :: signature ++ [labelled "body" body])
    semicolon
    return node "method_signature" (decorators ++ labelled "name" key ::
      signature)
  if isMethod then fail
  let annotation ← g.annotation
  let value ← g.initializer true
  semicolon
  return node "public_field_definition" (decorators ++ labelled "name" key ::
    annotation ++ value)

def classMember? : Reader (Option (List Node)) := do
  if ← mark? ";" then return some []
  if ← atMark "\x7d" then return none
  return some [← g.classMember]

def classBody : Reader Node := do
  mark "\x7b"
  let members ← repeated g.classMember? g.bound
  mark "\x7d"
  return node "class_body" members.flatten

def heritage : Reader (List Node) := do
  let parent ← do
    if ← word? "extends" then
      let parent ← g.read .operand
      g.typeArguments?
      pure [node "extends_clause" [labelled "value" parent]]
    else pure []
  if ← word? "implements" then
    let _ ← divided g.type "," g.bound
  return parent

def atHeritage : Reader Bool :=
  return (← atWord "implements") && (← second).1 ≠ .mark "\x7b"

def classOf (kind : String) (decorators : List Node) : Reader Node := do
  word "class"
  let name ← if ← atHeritage then pure [] else optionalName
  g.typeParameters?
  let heritage ← g.heritage
  let body ← g.classBody
  return node kind (decorators ++ name ++ heritage ++ [labelled "body" body])

end Grammar

end SnippetGrowth.Script
