import SnippetGrowth.Program.Script.Annotation

/-!
Markup elements in scripts.

The text between tags is read from the text itself: it runs up to the next
tag or expression in braces, and holds neither a closing brace nor a closing
angle bracket.
-/

namespace SnippetGrowth.Script

open Reader

namespace Grammar

variable (g : Grammar)

def isTagPart (c : Char) : Bool := isNamePart c || c = '-' || c = ':' || c = '.'

def tagName : Reader Unit := do
  match (← get).start.span isTagPart with
  | ([], _) => fail
  | (_, rest) => resume rest

def bracedPart : Reader Node := do
  mark "\x7b"
  let spread ← mark? "..."
  if !spread && (← atMark "\x7d") then return node "jsx_expression"
  let inner ← g.expression
  if !(← atMark "\x7d") then fail
  return node "jsx_expression" [if spread then node "spread_element" [inner]
    else inner]

def braced : Reader Node := do
  let part ← g.bracedPart
  mark "\x7d"
  return part

def attributeText : Reader Node := do
  match (← get).start with
  | quotation :: text =>
      match text.dropWhile (· != quotation) with
      | _ :: rest =>
          resume rest
          return node "string"
      | [] => fail
  | [] => fail

def attributeValue : Reader (List Node) := do
  match (← get).start.head? with
  | some '\x7b' => return [← g.braced]
  | some '<' => return [← g.read .element]
  | some c =>
      if c = '\x22' || c = '\x27' then return [← attributeText]
      fail
  | none => fail

def attribute? : Reader (Option Node) := do
  match (← get).start.head? with
  | some '\x7b' => return some (← g.braced)
  | some c =>
      if !isTagPart c then return none
      tagName
      if ← mark? "=" then return some (node "jsx_attribute" (← g.attributeValue))
      return some (node "jsx_attribute")
  | none => return none

def contents : Nat → List Char → Reader (List Node)
  | 0, _ => fail
  | bound + 1, text => do
      match text.dropWhile fun c => !(['<', '>', '\x7b', '\x7d'].contains c) with
      | '<' :: '/' :: rest =>
          resume rest
          if (← get).start.head? ≠ some '>' then tagName
          character '>'
          return []
      | '<' :: rest =>
          resume ('<' :: rest)
          let child ← g.read .element
          return child :: (← contents bound (← get).origin)
      | '\x7b' :: rest =>
          resume ('\x7b' :: rest)
          let child ← g.bracedPart
          return child :: (← contents bound (← get).rest)
      | _ => fail

def elementRule : Reader Node := do
  character '<'
  let attributes ← do
    if (← get).start.head? = some '>' then pure []
    else
      tagName
      g.typeArguments?
      repeated g.attribute? g.bound
  if ← mark? "/" then
    character '>'
    return node "jsx_self_closing_element" attributes
  match (← get).start with
  | '>' :: text =>
      return node "jsx_element" (attributes ++ (← g.contents g.bound text))
  | _ => fail

end Grammar

end SnippetGrowth.Script
