import SnippetGrowth.Program.Script.Expression

/-!
Statements and declarations.
-/

namespace SnippetGrowth.Script

open Reader

namespace Grammar

variable (g : Grammar)

def statement : Reader Node := g.read .statement

def statement? : Reader (Option Node) := do
  let cursor ← get
  let ended :=
    [Token.mark "\x7d", .finish, .name "case", .name "default"].contains
      cursor.token
  if ended then return none
  return some (← g.statement)

def statements : Reader (List Node) := repeated g.statement? g.bound

def blockRule : Reader Node := do
  mark "\x7b"
  let body ← g.statements
  mark "\x7d"
  return node "statement_block" body

/-! ## Variables -/

def declarator (allowIn : Bool) : Reader Node := do
  let target ← g.read .pattern
  let _ ← mark? "!"
  let annotation ← g.annotation
  let value ← g.initializer allowIn
  return node "variable_declarator"
    (labelled "name" target :: annotation ++ value)

def atLet : Reader Bool := do
  if !(← atWord "let") then return false
  match (← second).1 with
  | .name word => return !isReserved word
  | .mark text => return text = "[" || text = "\x7b"
  | _ => return false

def atDeclaration : Reader Bool :=
  return (← atWord "var") || (← atWord "const") || (← atLet)

def declarators (allowIn : Bool) : Reader Node := do
  let isVar ← word? "var"
  if !isVar then
    let _ ← advance
  let declared ← divided (g.declarator allowIn) "," g.bound
  return if isVar then node "variable_declaration" declared
    else node "lexical_declaration" declared

def variableStatement : Reader Node := do
  let declaration ← g.declarators true
  semicolon
  return declaration

/-! ## Control -/

def condition : Reader Node := return labelled "condition" (← g.parenthesized)

def ifStatement : Reader Node := do
  word "if"
  let condition ← g.condition
  let consequence ← g.statement
  let alternative ← do
    if ← word? "else" then pure [node "else_clause" [← g.statement]] else pure []
  return node "if_statement" (condition :: labelled "consequence" consequence ::
    alternative)

def whileStatement : Reader Node := do
  word "while"
  let condition ← g.condition
  return node "while_statement" [condition, labelled "body" (← g.statement)]

def doStatement : Reader Node := do
  word "do"
  let body ← g.statement
  word "while"
  let condition ← g.condition
  let _ ← mark? ";"
  return node "do_statement" [labelled "body" body, condition]

def optionalExpression (sign : String) : Reader (List Node) := do
  if ← atMark sign then return []
  return [← g.expression]

def countingLoop (initial : List Node) : Reader Node := do
  mark ";"
  let condition ← g.optionalExpression ";"
  mark ";"
  let increment ← g.optionalExpression ")"
  mark ")"
  let body ← g.statement
  return node "for_statement"
    (initial.map (labelled "initializer") ++
      condition.map (labelled "condition") ++
      increment.map (labelled "increment") ++ [labelled "body" body])

def memberLoop (left : Node) : Reader Node := do
  let overKeys ← word? "in"
  if !overKeys then word "of"
  let right ← if overKeys then g.expression else g.assignment
  mark ")"
  let body ← g.statement
  return node "for_in_statement"
    [labelled "left" left, labelled "right" right, labelled "body" body]

def forStatement : Reader Node := do
  word "for"
  let _ ← word? "await"
  mark "("
  if ← atMark ";" then return ← g.countingLoop []
  let initial ← if ← atDeclaration then g.declarators false
    else g.read (.expression false)
  if ← atMark ";" then return ← g.countingLoop [initial]
  if initial.kind = "variable_declaration" ||
      initial.kind = "lexical_declaration" then
    if initial.children.length ≠ 1 then fail
    g.memberLoop initial
  else
    g.memberLoop (← assignable initial)

def switchCase? : Reader (Option Node) := do
  let tested ← word? "case"
  if !tested && !(← word? "default") then return none
  let value ← if tested then pure [labelled "value" (← g.expression)] else pure []
  mark ":"
  let body ← g.statements
  return some (if tested then node "switch_case" (value ++ body)
    else node "switch_default" body)

def switchStatement : Reader Node := do
  word "switch"
  let value ← g.parenthesized
  mark "\x7b"
  let cases ← repeated g.switchCase? g.bound
  mark "\x7d"
  return node "switch_statement" [labelled "value" value,
    node "switch_body" cases]

def catchClause : Reader (List Node) := do
  if !(← word? "catch") then return []
  let parameter ← do
    if ← mark? "(" then
      let target ← g.read .pattern
      let annotation ← g.annotation
      mark ")"
      pure (labelled "parameter" target :: annotation)
    else pure []
  let body ← g.read .block
  return [node "catch_clause" (parameter ++ [labelled "body" body])]

def tryStatement : Reader Node := do
  word "try"
  let body ← g.read .block
  let handler ← g.catchClause
  let finalizer ← do
    if ← word? "finally" then pure [node "finally_clause" [← g.read .block]]
      else pure []
  if handler.isEmpty && finalizer.isEmpty then fail
  return node "try_statement" (labelled "body" body :: handler ++ finalizer)

def atEnd : Reader Bool := wouldRead semicolon

def returnStatement : Reader Node := do
  word "return"
  let value ← if ← atEnd then pure [] else pure [← g.expression]
  semicolon
  return node "return_statement" value

def throwStatement : Reader Node := do
  word "throw"
  if ← newlineBefore then fail
  let value ← g.expression
  semicolon
  return node "throw_statement" [value]

def jump (kind : String) : Reader Node := do
  let _ ← advance
  let label ← if ← atEnd then pure []
    else pure [leaf "statement_identifier" (← name)]
  semicolon
  return node kind label

def withStatement : Reader Node := do
  word "with"
  let object ← g.parenthesized
  return node "with_statement" [labelled "object" object,
    labelled "body" (← g.statement)]

/-! ## Declarations of types -/

def typeHead : Reader Unit := do
  let _ ← name
  g.typeParameters?

def typeAlias : Reader Node := do
  word "type"
  g.typeHead
  mark "="
  g.type
  semicolon
  return node "type_alias_declaration"

def interface : Reader Node := do
  word "interface"
  g.typeHead
  if ← word? "extends" then
    let _ ← divided g.type "," g.bound
  g.objectType
  return node "interface_declaration"

def enumMember : Reader Node := do
  let name ← g.propertyName
  return node "enum_assignment" (name :: (← g.initializer true))

def enumDeclaration : Reader Node := do
  let _ ← word? "const"
  word "enum"
  let name ← identifier
  mark "\x7b"
  return node "enum_declaration"
    (labelled "name" name :: (← listed g.enumMember "\x7d" g.bound))

def moduleDeclaration : Reader Node := do
  let _ ← advance
  if (← token) = .quoted then
    let _ ← advance
  else
    let _ ← divided name "." g.bound
  if ← atMark "\x7b" then return node "module" [labelled "body" (← g.read .block)]
  semicolon
  return node "module"

def ambient : Reader Node := do
  word "declare"
  if ← word? "global" then return node "ambient_declaration" [← g.read .block]
  return node "ambient_declaration" [← g.statement]

/-! ## Imports and exports -/

def specifierName : Reader Unit := do
  if (← token) = .quoted then
    let _ ← advance
  else
    let _ ← anyName

def specifier : Reader Unit := do
  specifierName
  let renamed ← word? "as"
  if renamed then specifierName
  else if !(← atMark ",") && !(← atMark "\x7d") then
    specifierName
    if ← word? "as" then specifierName

def specifiers : Reader Unit := do
  mark "\x7b"
  let _ ← listed specifier "\x7d" g.bound

def source : Reader Unit := do
  if (← token) ≠ .quoted then fail
  let _ ← advance
  if (← word? "with") || (← word? "assert") then
    let _ ← g.object

def importedNames : Reader Unit := do
  if ← mark? "*" then
    word "as"
    let _ ← name
  else if ← atMark "\x7b" then g.specifiers
  else
    let _ ← name
    if ← mark? "," then
      if ← mark? "*" then
        word "as"
        let _ ← name
      else g.specifiers

def importedAlias : Reader Unit := do
  let _ ← name
  mark "="
  let _ ← g.read .operand

def importStatement : Reader Node := do
  word "import"
  if (← token) = .quoted then g.source
  else
    let typed ← attempt do
      word "type"
      g.importedNames
      word "from"
    if typed.isSome then g.source
    else
      either g.importedAlias do
        g.importedNames
        word "from"
        g.source
  semicolon
  return node "import_statement"

def exportedNames : Reader Unit := do
  let _ ← word? "type"
  if ← mark? "*" then
    if ← word? "as" then specifierName
    word "from"
    g.source
  else
    g.specifiers
    if ← word? "from" then g.source

def atExportedDeclaration : Reader Bool := do
  let (following, _) ← second
  return (← atFunction) || (← atWord "class") || (← atMark "@") ||
    ((← atWord "abstract") && following = .name "class") ||
    ((← atWord "interface") && following ≠ .mark ";")

def exportStatement : Reader Node := do
  word "export"
  if ← word? "default" then
    if ← atExportedDeclaration then return node "export_statement" [← g.statement]
    let value ← g.assignment
    semicolon
    return node "export_statement" [labelled "value" value]
  let (following, _) ← second
  let names := (← atMark "*") || (← atMark "\x7b") ||
    ((← atWord "type") && (following = .mark "\x7b" || following = .mark "*"))
  if names then
    g.exportedNames
    semicolon
    return node "export_statement"
  if ← mark? "=" then
    let value ← g.expression
    semicolon
    return node "export_statement" [value]
  if ← word? "as" then
    word "namespace"
    let _ ← name
    semicolon
    return node "export_statement"
  return node "export_statement" [labelled "declaration" (← g.statement)]

/-! ## Statements -/

def labelledStatement : Reader Node := do
  let label ← name
  mark ":"
  return node "labeled_statement"
    [labelled "label" (leaf "statement_identifier" label),
      labelled "body" (← g.statement)]

def expressionStatement : Reader Node := do
  let inner ← g.expression
  semicolon
  return node "expression_statement" [inner]

def decoratedStatement : Reader Node := do
  let decorators ← g.decorators
  if ← atWord "export" then
    return node "export_statement" (decorators ++ [← g.exportStatement])
  let _ ← word? "abstract"
  g.classOf "class_declaration" decorators

def reservedStatement? (word : String) : Option (Reader Node) :=
  match word with
  | "var" => some g.variableStatement
  | "if" => some g.ifStatement
  | "for" => some g.forStatement
  | "while" => some g.whileStatement
  | "do" => some g.doStatement
  | "switch" => some g.switchStatement
  | "try" => some g.tryStatement
  | "return" => some g.returnStatement
  | "throw" => some g.throwStatement
  | "break" => some (jump "break_statement")
  | "continue" => some (jump "continue_statement")
  | "with" => some g.withStatement
  | "class" => some (g.classOf "class_declaration" [])
  | "function" => some g.functionDeclaration
  | "enum" => some g.enumDeclaration
  | "export" => some g.exportStatement
  | _ => none

/-- A statement that starts with a word that is also a name, if the next token
makes it one. -/
def contextualStatement? (word : String) (following : Token) (newline : Bool) :
    Option (Reader Node) :=
  let named := match following with
    | .name _ => !newline
    | _ => false
  match word with
  | "async" => if following = .name "function" && !newline then
      some g.functionDeclaration else none
  | "type" => if named then some g.typeAlias else none
  | "interface" => if named then some g.interface else none
  | "namespace" => if named then some g.moduleDeclaration else none
  | "module" =>
      if named || following = .quoted then some g.moduleDeclaration else none
  | "declare" => if named then some g.ambient else none
  | "abstract" =>
      if following = .name "class" then
        some do
          let _ ← advance
          g.classOf "abstract_class_declaration" []
      else none
  | _ => none

def namedStatement (word : String) : Reader Node := do
  let (following, newline) ← second
  if ← atLet then g.variableStatement
  else if word = "const" then
    if following = .name "enum" then g.enumDeclaration else g.variableStatement
  else if word = "import" && following ≠ .mark "(" && following ≠ .mark "." then
    g.importStatement
  else if word = "debugger" then
    let _ ← advance
    semicolon
    return node "debugger_statement"
  else if !isReserved word && following = .mark ":" then g.labelledStatement
  else
    match g.reservedStatement? word,
    g.contextualStatement? word following newline with
    | some reader, _ => reader
    | none, some reader => reader
    | none, none => g.expressionStatement

def statementRule : Reader Node := do
  match ← token with
  | .mark "\x7b" => g.read .block
  | .mark ";" =>
      mark ";"
      return node "empty_statement"
  | .mark "@" => g.decoratedStatement
  | .name word => g.namedStatement word
  | _ => g.expressionStatement

end Grammar

end SnippetGrowth.Script
