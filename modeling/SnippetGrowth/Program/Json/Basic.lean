import SnippetGrowth.Double.Basic

/-!
JSON values.

A number without fraction and exponent is a whole number of any size, and any
other one is a double; the two are kept apart.  A text with half of a
surrogate pair is no text of characters, and stands as `none`.  Members of an
object keep their order; of members with equal keys the last one counts.
-/

namespace SnippetGrowth

inductive Json where
  | null
  | bool (value : Bool)
  | whole (n : Int)
  | real (x : Double)
  | text (content : Option String)
  | list (items : List Json)
  | object (members : List (Option String × Json))

namespace Json

def member? (members : List (Option String × Json)) (key : String) :
    Option Json :=
  members.reverse.lookup (some key)

def get? (json : Json) (key : String) : Option Json :=
  match json with
  | object members => member? members key
  | _ => none

def string? : Json → Option String
  | text content => content
  | _ => none

mutual

/-- Whether a value can be written again: all its numbers are finite and its
texts are complete. -/
def isWritable : Json → Bool
  | null => true
  | bool _ => true
  | whole _ => true
  | real x => x.isFinite
  | text content => content.isSome
  | list items => areWritable items
  | object members => areWritableMembers members

def areWritable : List Json → Bool
  | [] => true
  | item :: rest => item.isWritable && areWritable rest

def areWritableMembers : List (Option String × Json) → Bool
  | [] => true
  | (key, value) :: rest =>
      key.isSome && value.isWritable && areWritableMembers rest

end

end Json

end SnippetGrowth
