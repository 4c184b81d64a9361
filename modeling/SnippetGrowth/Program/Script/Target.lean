import SnippetGrowth.Program.Script.Grammar

/-!
Assignment targets.

An array or object before an equals sign is a pattern, although it was read as
an expression; `asPattern?` turns one into the other, if every part of it can
be assigned to.  A shorthand property with a stand-in value makes sense in a
pattern only: `hasStrayDefault` finds one that was left in an object.
-/

namespace SnippetGrowth.Script

def simpleTargets : List String :=
  ["identifier", "undefined", "member_expression", "subscript_expression",
    "non_null_expression", "parenthesized_expression"]

def isSimpleTarget (target : Node) : Bool := simpleTargets.contains target.kind

def patternParts : List String :=
  ["hole", "shorthand_property_identifier", "object_assignment_pattern"]

mutual

def asPattern? : Node → Option Node
  | ⟨kind, named, field, text, position, missing, children⟩ =>
      if kind = "array" then
        (asPatterns? children).map (⟨"array_pattern", named, field, text,
          position, missing, ·⟩)
      else if kind = "object" then
        (asPatterns? children).map (⟨"object_pattern", named, field, text,
          position, missing, ·⟩)
      else if kind = "spread_element" then
        (asPatterns? children).map (⟨"rest_pattern", named, field, text,
          position, missing, ·⟩)
      else if kind = "assignment_expression" then
        some ⟨"assignment_pattern", named, field, text, position, missing,
          children⟩
      else if kind = "pair" then
        match children with
        | [key, value] =>
            (asPattern? value).map
              (⟨"pair_pattern", named, field, text, position, missing, [key, ·]⟩)
        | _ => none
      else if simpleTargets.contains kind || patternParts.contains kind then
        some ⟨kind, named, field, text, position, missing, children⟩
      else none

def asPatterns? : List Node → Option (List Node)
  | [] => some []
  | first :: rest =>
      match asPattern? first, asPatterns? rest with
      | some first, some rest => some (first :: rest)
      | _, _ => none

end

/-- Whether some object in a tree has a shorthand property with a stand-in value. -/
def hasStrayDefault (root : Node) : Bool :=
  root.walk.any fun node =>
    node.kind = "object" &&
      node.children.any (·.kind = "object_assignment_pattern")

end SnippetGrowth.Script
