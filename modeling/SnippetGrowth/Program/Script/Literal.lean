import SnippetGrowth.Program.Script.Grammar

/-!
Templates and regular expressions, which are read from the text itself and not
from tokens.
-/

namespace SnippetGrowth.Script

inductive ChunkEnd where
  | closed
  | substitution
  deriving DecidableEq

def templateChunk? : Nat → List Char → Option (ChunkEnd × List Char)
  | _, [] => none
  | skip + 1, _ :: rest => templateChunk? skip rest
  | 0, '\x60' :: rest => some (.closed, rest)
  | 0, '$' :: '\x7b' :: rest => some (.substitution, rest)
  | 0, '\\' :: rest =>
      match escapeLength? rest with
      | some length => templateChunk? length rest
      | none => none
  | 0, _ :: rest => templateChunk? 0 rest

/-- What follows the body of a regular expression. A slash inside brackets or
after a backslash does not end it, and a line does not end in it. -/
def afterPattern? (bracketed escaped : Bool) : List Char → Option (List Char)
  | [] => none
  | c :: rest =>
      if isLineEnd c then none
      else if escaped then afterPattern? bracketed false rest
      else if c = '\\' then afterPattern? bracketed true rest
      else if c = '[' then afterPattern? true false rest
      else if c = ']' then afterPattern? false false rest
      else if c = '/' && !bracketed then some rest
      else afterPattern? bracketed false rest

def afterRegex? : List Char → Option (List Char)
  | '/' :: '*' :: _ => none
  | '/' :: rest => (afterPattern? false false rest).map (·.dropWhile isNamePart)
  | _ => none

namespace Reader

def substitutions (part : Reader Node) : Nat → List Char → Reader (List Node)
  | 0, _ => fail
  | bound + 1, text => do
      match templateChunk? 0 text with
      | none => fail
      | some (.closed, rest) =>
          resume rest
          return []
      | some (.substitution, rest) =>
          resume rest
          let inner ← part
          if !(← atMark "\x7d") then fail
          let cursor ← get
          return node "template_substitution" [inner] ::
            (← substitutions part bound cursor.rest)

def template (part : Reader Node) (bound : Nat) : Reader Node := do
  if (← token) ≠ .backQuote then fail
  return node "template_string" (← substitutions part bound (← get).rest)

def regex : Reader Node := do
  match afterRegex? (← get).start with
  | some rest =>
      resume rest
      return node "regex"
  | none => fail

end Reader

end SnippetGrowth.Script
