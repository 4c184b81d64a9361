import SnippetGrowth.Program.Script.Token
import SnippetGrowth.Tree.Basic

/-!
Reading syntax by recursive descent.

A reader starts at a cursor and either fails, with the text at which it
stopped, or gives a result and the cursor after it.  Alternatives start again
from the same cursor, and the failure of the last one counts.

The rules of the grammar refer to one another through `Goal`: a rule is given
a `Grammar` that reads any goal, so each rule is an ordinary definition, and
the recursion between goals is closed in one place.  `Grammar.bound` is at
least the number of items that any repetition can have.
-/

namespace SnippetGrowth.Script

/-! ## Nodes -/

def node (kind : String) (children : List Node := []) : Node where
  kind
  children

def leaf (kind text : String) : Node where
  kind
  text

def sign (text : String) : Node where
  kind := text
  named := false
  text

def labelled (field : String) (part : Node) : Node :=
  { part with field := some field }

/-! ## Readers -/

abbrev Reader := StateT Cursor (Except (List Char))

/-- What the rules of the grammar refer to. The flag of an expression says
whether `in` may be an operator; that of an assignment says whether an arrow
function may name its result type. -/
inductive Goal where
  | statement
  | block
  | expression (allowIn : Bool)
  | assignment (allowIn typedArrow : Bool)
  | binary (allowIn : Bool) (level : Nat)
  | unary
  | operand
  | constructed
  | pattern
  | type
  | element

structure Grammar where
  bound : Nat
  read : Goal → Reader Node

namespace Reader

def fail {α : Type} : Reader α := fun cursor => .error cursor.start

def either {α : Type} (first second : Reader α) : Reader α := fun cursor =>
  match first cursor with
  | .ok result => .ok result
  | .error _ => second cursor

/-- The result of a reader, or nothing and no progress if it fails. -/
def attempt {α : Type} (reader : Reader α) : Reader (Option α) := fun cursor =>
  match reader cursor with
  | .ok (result, after) => .ok (some result, after)
  | .error _ => .ok (none, cursor)

/-- What a reader would give here, if it does not fail; no progress is made. -/
def lookAhead {α : Type} (reader : Reader α) : Reader (Option α) := fun cursor =>
  match reader cursor with
  | .ok (result, _) => .ok (some result, cursor)
  | .error _ => .ok (none, cursor)

def wouldRead {α : Type} (reader : Reader α) : Reader Bool :=
  return (← lookAhead reader).isSome

def resume (text : List Char) : Reader Unit := set (Cursor.ofText text)

def advance : Reader Token := do
  let cursor ← get
  resume cursor.rest
  return cursor.token

def token : Reader Token := return (← get).token

def newlineBefore : Reader Bool := return (← get).newline

def atMark (sign : String) : Reader Bool := return (← token) = .mark sign

def atWord (word : String) : Reader Bool := return (← token) = .name word

def mark? (sign : String) : Reader Bool := do
  if ← atMark sign then
    let _ ← advance
    return true
  else return false

def mark (sign : String) : Reader Unit := do
  if !(← mark? sign) then fail

def word? (word : String) : Reader Bool := do
  if ← atWord word then
    let _ ← advance
    return true
  else return false

def word (word : String) : Reader Unit := do
  if !(← word? word) then fail

def second : Reader (Token × Bool) := do
  let next := Cursor.ofText (← get).rest
  return (next.token, next.newline)

def character (c : Char) : Reader Unit := do
  match (← get).start with
  | d :: rest => if c = d then resume rest else fail
  | [] => fail

def repeated {α : Type} (item : Reader (Option α)) : Nat → Reader (List α)
  | 0 => return []
  | bound + 1 => do
      match ← item with
      | some first => return first :: (← repeated item bound)
      | none => return []

/-- Results divided by commas up to a closing mark, which may follow a comma. -/
def listed {α : Type} (item : Reader α) (close : String) : Nat → Reader (List α)
  | 0 => fail
  | bound + 1 => do
      if ← mark? close then return []
      let first ← item
      if ← mark? close then return [first]
      mark ","
      return first :: (← listed item close bound)

def divided {α : Type} (item : Reader α) (sign : String) : Nat → Reader (List α)
  | 0 => fail
  | bound + 1 => do
      let first ← item
      if ← mark? sign then return first :: (← divided item sign bound)
      return [first]

/-- The end of a statement: a semicolon, or a closing brace, a new line or the
end of the text. -/
def semicolon : Reader Unit := do
  if ← mark? ";" then return
  let cursor ← get
  if cursor.newline || cursor.token = .mark "\x7d" || cursor.token = .finish then
    return
  fail

end Reader

def reservedWords : List String :=
  ["break", "case", "catch", "class", "const", "continue", "debugger",
    "default", "delete", "do", "else", "enum", "export", "extends", "false",
    "finally", "for", "function", "if", "import",
    "in", "instanceof", "new", "null", "return", "super", "switch", "this",
    "throw", "true", "try",
    "typeof", "var", "void", "while", "with"]

def isReserved (word : String) : Bool := reservedWords.contains word

namespace Reader

def name : Reader String := do
  match ← token with
  | .name word =>
      if isReserved word then fail
      let _ ← advance
      return word
  | _ => fail

def identifier : Reader Node := return leaf "identifier" (← name)

def anyName : Reader String := do
  match ← token with
  | .name word =>
      let _ ← advance
      return word
  | _ => fail

def atName : Reader Bool := wouldRead name

end Reader

end SnippetGrowth.Script
