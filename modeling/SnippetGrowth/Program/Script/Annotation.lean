import SnippetGrowth.Program.Script.Literal
import SnippetGrowth.Program.Script.Pattern

/-!
Types.  No scan looks inside a type, so a type is read into a node without
children; only its extent matters.
-/

namespace SnippetGrowth.Script

open Reader

namespace Grammar

variable (g : Grammar)

def type : Reader Unit := do
  let _ ← g.read .type

def typeArguments : Reader Unit := do
  character '<'
  let _ ← divided g.type "," g.bound
  character '>'

def typeArguments? : Reader Unit := do
  if (← get).start.head? = some '<' then g.typeArguments

def typeParameter : Reader Unit := do
  let _ ← word? "const"
  let _ ← name
  if ← word? "extends" then g.type
  if ← mark? "=" then g.type

def typeParametersFrom : Nat → Reader Unit
  | 0 => fail
  | bound + 1 => do
      g.typeParameter
      if ← mark? "," then
        if (← get).start.head? = some '>' then character '>'
          else typeParametersFrom bound
      else character '>'

def typeParameters? : Reader Unit := do
  if (← get).start.head? = some '<' then
    character '<'
    g.typeParametersFrom g.bound

def resultType : Reader Unit := do
  let asserting ← attempt do
    word "asserts"
    if ← newlineBefore then fail
    let _ ← anyName
  if asserting.isSome then
    if ← word? "is" then g.type
  else
    g.type
    if (← atWord "is") && !(← newlineBefore) then
      word "is"
      g.type

def resultAnnotation : Reader (List Node) := do
  if ← mark? ":" then
    g.resultType
    return [node "type_annotation"]
  return []

def signature : Reader (List Node) := do
  g.typeParameters?
  let parameters ← g.parameters
  return labelled "parameters" parameters :: (← g.resultAnnotation)

def functionType : Reader Unit := do
  g.typeParameters?
  let _ ← g.parameters
  mark "=>"
  g.resultType

/-! ## Members of object types -/

def memberModifiers : List String := ["readonly", "get", "set", "static"]

def startsMemberName : Token → Bool
  | .name _ => true
  | .privateName _ => true
  | .number _ => true
  | .quoted => true
  | .mark sign => sign = "["
  | _ => false

def memberModifier? : Reader (Option Unit) := do
  match ← token with
  | .name word =>
      if memberModifiers.contains word && startsMemberName (← second).1 then
        let _ ← advance
        return some ()
      return none
  | _ => return none

def mappingSign : Reader Unit := do
  if !(← mark? "+") then
    let _ ← mark? "-"

def indexMember : Reader Unit := do
  mappingSign
  let _ ← word? "readonly"
  mark "["
  let _ ← name
  if ← word? "in" then
    g.type
    if ← word? "as" then g.type
    mark "]"
    mappingSign
    let _ ← mark? "?"
  else
    mark ":"
    g.type
    mark "]"
  let _ ← g.annotation

def namedMember : Reader Unit := do
  let _ ← repeated memberModifier? g.bound
  if (← atMark "(") || (← atMark "<") then
    let _ ← g.signature
  else
    let isNew := (← atWord "new") && (← second).1 = .mark "("
    if isNew then word "new"
    else
      let _ ← g.propertyName
      let _ ← mark? "?"
    if (← atMark "(") || (← atMark "<") then
      let _ ← g.signature
    else
      let _ ← g.annotation

def objectTypeMember? : Reader (Option Unit) := do
  if ← atMark "\x7d" then return none
  either g.indexMember g.namedMember
  if !(← mark? ",") then semicolon
  return some ()

def objectType : Reader Unit := do
  mark "\x7b"
  let _ ← repeated g.objectTypeMember? g.bound
  mark "\x7d"

/-! ## Types -/

def tupleElement : Reader Unit := do
  let _ ← mark? "..."
  let label ← attempt do
    let _ ← anyName
    let _ ← mark? "?"
    mark ":"
  let _ := label
  g.type
  let _ ← mark? "?"

def typeWords : List String := ["void", "null", "this", "true", "false"]

def qualification? : Reader (Option Unit) := do
  if ← mark? "." then
    let _ ← anyName
    return some ()
  return none

def namedType : Reader Unit := do
  let _ ← repeated qualification? g.bound
  if !(← newlineBefore) then g.typeArguments?

def importedType : Reader Unit := do
  word "import"
  mark "("
  g.type
  mark ")"
  g.namedType

def valueType : Reader Unit := do
  word "typeof"
  if ← atWord "import" then g.importedType
  else
    let _ ← anyName
    g.namedType

def primaryType : Reader Unit := do
  match ← token with
  | .name "typeof" => g.valueType
  | .name "import" => g.importedType
  | .name word =>
      if isReserved word && !typeWords.contains word then fail
      let _ ← advance
      g.namedType
  | .number _ =>
      let _ ← advance
  | .quoted =>
      let _ ← advance
  | .backQuote =>
      let _ ← template (g.read .type) g.bound
  | .mark "-" =>
      mark "-"
      match ← advance with
      | .number _ => return
      | _ => fail
  | .mark "\x7b" => g.objectType
  | .mark "[" =>
      mark "["
      let _ ← listed g.tupleElement "]" g.bound
  | .mark "(" =>
      mark "("
      g.type
      mark ")"
  | _ => fail

def typeSuffix? : Reader (Option Unit) := do
  if (← newlineBefore) || !(← mark? "[") then return none
  if !(← mark? "]") then
    g.type
    mark "]"
  return some ()

def startsType : Token → Bool
  | .name word => !(["extends", "is", "in", "as"].contains word)
  | .number _ => true
  | .quoted => true
  | .backQuote => true
  | .mark sign => ["\x7b", "[", "(", "-"].contains sign
  | _ => false

def typeOperators : List String := ["keyof", "unique", "readonly", "infer"]

def typeOperator? : Reader (Option Unit) := do
  match ← token with
  | .name word =>
      if typeOperators.contains word && startsType (← second).1 then
        let _ ← advance
        return some ()
      return none
  | _ => return none

def operatedType : Reader Unit := do
  let _ ← repeated typeOperator? g.bound
  g.primaryType
  let _ ← repeated g.typeSuffix? g.bound

def intersectionType : Reader Unit := do
  let _ ← mark? "&"
  let _ ← divided g.operatedType "&" g.bound

def unionType : Reader Unit := do
  let _ ← mark? "|"
  let _ ← divided g.intersectionType "|" g.bound

def conditionalType : Reader Unit := do
  g.unionType
  if (← atWord "extends") && !(← newlineBefore) then
    word "extends"
    g.unionType
    if ← mark? "?" then
      g.type
      mark ":"
      g.type

def typeRule : Reader Node := do
  let constructs ← attempt do
    let _ ← word? "abstract"
    word "new"
  if constructs.isSome then g.functionType
  else if (← atMark "(") || (← atMark "<") then
    either g.functionType g.conditionalType
  else g.conditionalType
  return node "type"

end Grammar

end SnippetGrowth.Script
