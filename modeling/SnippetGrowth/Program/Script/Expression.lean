import SnippetGrowth.Program.Script.Member
import SnippetGrowth.Program.Script.Target

/-!
Expressions, from the comma down to single operands.
-/

namespace SnippetGrowth.Script

open Reader

namespace Grammar

variable (g : Grammar)

/-! ## Operands -/

def parenthesized : Reader Node := do
  mark "("
  let inner ← g.expression
  let annotation ← g.annotation
  mark ")"
  return node "parenthesized_expression" (sign "(" :: inner :: annotation ++
    [sign ")"])

def elementOrHole : Reader Node := do
  if ← atMark "," then return node "hole"
  g.spreadable

def array : Reader Node := do
  mark "["
  return node "array" (← listed g.elementOrHole "]" g.bound)

def classExpression : Reader Node := do g.classOf "class" (← g.decorators)

def operandWords : List String := ["this", "null", "true", "false"]

def linkedOperand (word : String) (marks : List String) : Reader Node := do
  let _ ← advance
  match ← token with
  | .mark text => if marks.contains text then return leaf word word else fail
  | _ => fail

def privateOperand (word : String) : Reader Node := do
  let _ ← advance
  if ← atWord "in" then return leaf "private_property_identifier" word
  fail

def primary : Reader Node := do
  if ← atFunction then return ← g.functionExpression
  match ← token with
  | .name "class" => g.classExpression
  | .name "super" => linkedOperand "super" ["(", ".", "["]
  | .name "import" => linkedOperand "import" ["(", "."]
  | .name word =>
      if operandWords.contains word then
        let _ ← advance
        return leaf word word
      else if word = "undefined" then
        let _ ← advance
        return leaf "undefined" word
      else identifier
  | .privateName word => privateOperand word
  | .number text =>
      let _ ← advance
      return leaf "number" text
  | .quoted =>
      let _ ← advance
      return node "string"
  | .backQuote => template g.expression g.bound
  | .mark "(" => g.parenthesized
  | .mark "[" => g.array
  | .mark "\x7b" => g.object
  | .mark "<" => g.read .element
  | .mark "@" => g.classExpression
  | .mark "/" => regex
  | .mark "/=" => regex
  | _ => fail

def memberName : Reader Node := do
  match ← advance with
  | .name word => return leaf "property_identifier" word
  | .privateName word => return leaf "private_property_identifier" word
  | _ => fail

def member (object : Node) : Reader Node := do
  return node "member_expression"
    [labelled "object" object, labelled "property" (← memberName)]

def subscript (object : Node) : Reader Node := do
  mark "["
  let index ← g.expression
  mark "]"
  return node "subscript_expression" [labelled "object" object,
    labelled "index" index]

def call (function : Node) : Reader Node := do
  return node "call_expression"
    [labelled "function" function, labelled "arguments" (← g.arguments)]

def taggedTemplate (function : Node) : Reader Node := do
  return node "call_expression"
    [labelled "function" function,
      labelled "arguments" (← template g.expression g.bound)]

def callTypeArguments : Reader Unit := do
  g.typeArguments
  if !(← atMark "(") && (← token) ≠ .backQuote then fail

/-- Tokens that cannot start an operand, so that type arguments may stand in
front of them. -/
def endsInstantiation : Token → Bool
  | .mark text => [";", ")", ",", "]", "\x7d", ":"].contains text
  | .finish => true
  | _ => false

def loneTypeArguments : Reader Unit := do
  g.typeArguments
  if !endsInstantiation (← token) then fail

def optionalLink (object : Node) : Reader Node := do
  mark "?."
  if ← atMark "[" then g.subscript object
  else if ← atMark "<" then
    g.callTypeArguments
    g.call object
  else if ← atMark "(" then g.call object
  else member object

def link? (calls : Bool) (operand : Node) : Reader (Option Node) := do
  let cursor ← get
  match cursor.token with
  | .mark "." =>
      mark "."
      return some (← member operand)
  | .mark "[" => return some (← g.subscript operand)
  | .backQuote => return some (← g.taggedTemplate operand)
  | .mark "!" =>
      if cursor.newline then return none
      mark "!"
      return some (node "non_null_expression" [operand])
  | .mark "(" =>
      if calls then return some (← g.call operand)
      return none
  | .mark "?." =>
      if calls then return some (← g.optionalLink operand)
      return none
  | .mark "<" =>
      if !calls then return none
      if (← attempt g.callTypeArguments).isSome then
        if ← atMark "(" then return some (← g.call operand)
        return some (← g.taggedTemplate operand)
      if (← attempt g.loneTypeArguments).isSome then
        return some (node "instantiation_expression" [operand])
      return none
  | _ => return none

def chain (calls : Bool) : Nat → Node → Reader Node
  | 0, operand => return operand
  | bound + 1, operand => do
      match ← g.link? calls operand with
      | some longer => chain calls bound longer
      | none => return operand

def construction : Reader Node := do
  word "new"
  if ← mark? "." then
    let _ ← anyName
    return node "meta_property"
  let constructed ← g.read .constructed
  let _ ← attempt g.callTypeArguments
  let arguments ← if ← atMark "(" then pure [labelled "arguments" (← g.arguments)]
    else pure []
  return node "new_expression" (labelled "constructor" constructed :: arguments)

def constructedRule : Reader Node := do
  if ← atWord "new" then g.construction
  else g.chain false g.bound (← g.primary)

def operandRule : Reader Node := do
  let start ← if ← atWord "new" then g.construction else g.primary
  g.chain true g.bound start

/-! ## Operators -/

def unaryWords : List String := ["delete", "void", "typeof"]

def unaryMarks : List String := ["+", "-", "~", "!"]

def updateMarks : List String := ["++", "--"]

def isCountable (target : Node) : Bool :=
  isSimpleTarget target || target.kind = "call_expression"

def operatorNode (text : String) : Node := labelled "operator" (sign text)

def unaryOf (operator : String) : Reader Node := do
  let _ ← advance
  return node "unary_expression"
    [operatorNode operator, labelled "argument" (← g.read .unary)]

def postfixed : Reader Node := do
  let operand ← g.read .operand
  let cursor ← get
  match cursor.token with
  | .mark text =>
      if updateMarks.contains text then
        if cursor.newline || !isCountable operand then return operand
        let _ ← advance
        return node "update_expression"
          [labelled "argument" operand, operatorNode text]
      else return operand
  | _ => return operand

def unaryRule : Reader Node := do
  match ← token with
  | .name word =>
      if unaryWords.contains word then g.unaryOf word
      else if word = "await" then
        let _ ← advance
        return node "await_expression" [← g.read .unary]
      else g.postfixed
  | .mark text =>
      if unaryMarks.contains text then g.unaryOf text
      else if updateMarks.contains text then
        let _ ← advance
        let operand ← g.read .unary
        if !isCountable operand then fail
        return node "update_expression"
          [operatorNode text, labelled "argument" operand]
      else g.postfixed
  | _ => g.postfixed

/-- How tightly the binary operators bind, the loosest ones first. -/
def binaryLevels : List (List String) :=
  [["??"], ["||"], ["&&"], ["|"], ["^"], ["&"], ["==", "!=", "===", "!=="],
    ["<", ">", "<=", ">=", "instanceof", "in"], ["<<", ">>", ">>>"], ["+", "-"],
    ["*", "/", "%"],
    ["**"]]

def relationLevel : Nat := 7

def powerLevel : Nat := 11

def binaryOperator? (allowIn : Bool) (token : Token) : Option (String × Nat) :=
  let text? :=
    match token with
    | .mark text => some text
    | .name word => if word = "instanceof" || (word = "in" && allowIn) then
        some word else none
    | _ => none
  text?.bind fun text =>
    (binaryLevels.findIdx? (·.contains text)).map fun level => (text, level)

def typeWord? (level : Nat) : Reader (Option String) := do
  let cursor ← get
  if cursor.newline || relationLevel < level then return none
  match cursor.token with
  | .name word =>
      return if word = "as" || word = "satisfies" then some word else none
  | _ => return none

def binaryFrom (allowIn : Bool) (level : Nat) : Nat → Node → Reader Node
  | 0, left => return left
  | bound + 1, left => do
      if let some word ← typeWord? level then
        let _ ← advance
        if !(← word? "const") then g.type
        binaryFrom allowIn level bound (node (word ++ "_expression") [left])
      else
        match binaryOperator? allowIn (← token) with
        | none => return left
        | some (operator, operatorLevel) =>
            if operatorLevel < level then return left
            let _ ← advance
            let rightLevel :=
              if operatorLevel = powerLevel then operatorLevel
                else operatorLevel + 1
            let right ← g.read (.binary allowIn rightLevel)
            binaryFrom allowIn level bound (node "binary_expression"
              [labelled "left" left, operatorNode operator,
                labelled "right" right])

def binaryRule (allowIn : Bool) (level : Nat) : Reader Node := do
  g.binaryFrom allowIn level g.bound (← g.read .unary)

/-- A condition with two alternatives. In the first one the colon ends the
alternative, and introduces a type only where that cannot be. -/
def conditional (allowIn typedArrow : Bool) : Reader Node := do
  let condition ← g.read (.binary allowIn 0)
  if !(← mark? "?") then return condition
  let first (typed : Bool) : Reader Node := do
    let consequence ← g.read (.assignment true typed)
    mark ":"
    return consequence
  let consequence ← either (first false) (first true)
  let alternative ← g.read (.assignment allowIn typedArrow)
  return node "ternary_expression"
    [labelled "condition" condition, labelled "consequence" consequence,
      labelled "alternative" alternative]

/-! ## Arrow functions -/

def arrow : Reader Unit := do
  if ← newlineBefore then fail
  mark "=>"

def nameArrow : Reader (List Node) := do
  let parameter ← identifier
  arrow
  return [labelled "parameter" parameter]

def opaqueMarks : List String := ["/", "/=", "<"]

def openingMarks : List String := ["(", "[", "\x7b"]

def closingMarks : List String := [")", "]", "\x7d"]

/-- The token after the brackets that are open, of which there are `depth`; it
stays unknown where a literal or a tag may hide brackets. -/
def tokenAfterGroup? : Nat → Nat → Reader (Option Token)
  | 0, _ => return none
  | bound + 1, depth => do
      match ← advance with
      | .finish => fail
      | .backQuote => return none
      | .mark text =>
          if opaqueMarks.contains text then return none
          else if openingMarks.contains text then
            tokenAfterGroup? bound (depth + 1)
          else if closingMarks.contains text then
            if depth ≤ 1 then return some (← token)
            tokenAfterGroup? bound (depth - 1)
          else tokenAfterGroup? bound depth
      | _ => tokenAfterGroup? bound depth

/-- Whether the group in parentheses that starts here may be the parameters of
an arrow function, judged by the token after it. Nested groups would be read
twice each without this. -/
def mayPrecedeArrow (typedArrow : Bool) : Reader Bool := do
  match ← lookAhead (tokenAfterGroup? g.bound 0) with
  | none => return false
  | some none => return true
  | some (some following) =>
      return following = .mark "=>" || (typedArrow && following = .mark ":")

def parametersArrow (typedArrow : Bool) : Reader (List Node) := do
  g.typeParameters?
  if !(← g.mayPrecedeArrow typedArrow) then fail
  let parameters ← g.parameters
  let result ← if typedArrow then g.resultAnnotation else pure []
  arrow
  return labelled "parameters" parameters :: result

def mayOpenParameters : Token → Bool
  | .name word => !isReserved word || word = "this"
  | .mark text => [")", "...", "[", "\x7b", "@"].contains text
  | _ => false

def atTypeParameters : Reader Bool := wouldRead do
  character '<'
  let _ ← word? "const"
  let _ ← name
  if !(← atMark ",") && !(← atWord "extends") then fail

def arrowHead? (typedArrow : Bool) : Reader (Option (List Node)) := do
  let (following, newline) ← second
  match ← token with
  | .name word =>
      if isReserved word then return none
      if following = .mark "=>" then return ← attempt nameArrow
      if word = "async" && !newline then
        match following with
        | .name _ => attempt (do Reader.word "async"; nameArrow)
        | .mark "(" =>
            attempt (do Reader.word "async"; g.parametersArrow typedArrow)
        | .mark "<" =>
            attempt (do Reader.word "async"; g.parametersArrow typedArrow)
        | _ => return none
      else return none
  | .mark "(" =>
      if mayOpenParameters following then attempt (g.parametersArrow typedArrow)
        else return none
  | .mark "<" =>
      if ← atTypeParameters then attempt (g.parametersArrow typedArrow)
        else return none
  | _ => return none

def arrowBody (allowIn typedArrow : Bool) : Reader Node := do
  if ← atMark "\x7b" then g.read .block
  else g.read (.assignment allowIn typedArrow)

/-! ## Assignments -/

def assignmentMarks : List String :=
  ["*=", "/=", "%=", "+=", "-=", "<<=", ">>=", ">>>=", "&=", "^=", "|=", "**=",
    "&&=", "||=", "??="]

def endsYield : Token → Bool
  | .mark text => [")", "]", "\x7d", ",", ";", ":"].contains text
  | .name word => word = "in" || word = "of"
  | .finish => true
  | _ => false

def yielded (allowIn : Bool) : Reader Node := do
  word "yield"
  let cursor ← get
  if cursor.newline || endsYield cursor.token then return node "yield_expression"
  let _ ← mark? "*"
  return node "yield_expression" [← g.read (.assignment allowIn true)]

def assignable (left : Node) : Reader Node := do
  if isSimpleTarget left then return left
  if left.kind ≠ "array" && left.kind ≠ "object" then fail
  match asPattern? left with
  | some pattern => return pattern
  | none => fail

def assignmentRule (allowIn typedArrow : Bool) : Reader Node := do
  if let some head ← g.arrowHead? typedArrow then
    let body ← g.arrowBody allowIn typedArrow
    return node "arrow_function" (head ++ [labelled "body" body])
  if ← atWord "yield" then return ← g.yielded allowIn
  let left ← g.conditional allowIn typedArrow
  match ← token with
  | .mark "=" =>
      let target ← assignable left
      mark "="
      let right ← g.read (.assignment allowIn typedArrow)
      return node "assignment_expression" [labelled "left" target,
        labelled "right" right]
  | .mark text =>
      if assignmentMarks.contains text then
        if !isSimpleTarget left then fail
        let _ ← advance
        let right ← g.read (.assignment allowIn typedArrow)
        return node "augmented_assignment_expression"
          [labelled "left" left, operatorNode text, labelled "right" right]
      else return left
  | _ => return left

def expressionRule (allowIn : Bool) : Reader Node := do
  match ← divided (g.read (.assignment allowIn true)) "," g.bound with
  | [single] => return single
  | several => return node "sequence_expression" several

end Grammar

end SnippetGrowth.Script
