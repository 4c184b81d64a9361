import SnippetGrowth.Failure

/-!
Syntax trees.

A node has a kind, perhaps a field name that says which part of its parent it
is, the text it covers where that matters, and children in source order.
Punctuation and keywords are nodes too, but not named ones.

`walk` visits a forest with an explicit stack; `preorder` is the recursive
order, a node before its descendants and a child's subtree before the next
child.
-/

namespace SnippetGrowth

structure Position where
  row : Nat := 0
  column : Nat := 0
  deriving DecidableEq, Repr

structure Node where
  kind : String
  named : Bool := true
  field : Option String := none
  text : String := ""
  position : Position := {}
  missing : Bool := false
  children : List Node := []

instance : Inhabited Node := ⟨{ kind := "" }⟩

/-- A root with the parser's verdict on the text: whether something in it is wrong. -/
structure Tree where
  root : Node
  hasError : Bool := false

/-- The trees that a grammar from outside gives to the texts of scripts. -/
abbrev Parser := String → Tree

/-- The parser that knows some scripts, and finds an error in every other text. -/
def Parser.knowing (scripts : List (String × Node)) : Parser := fun text =>
  match scripts.lookup text with
  | some root => { root }
  | none => { root := { kind := "ERROR", text }, hasError := true }

namespace Node

mutual

def size : Node → Nat
  | ⟨_, _, _, _, _, _, children⟩ => sizeAll children + 1

def sizeAll : List Node → Nat
  | [] => 0
  | node :: rest => node.size + sizeAll rest

end

mutual

def preorder : Node → List Node
  | ⟨kind, named, field, text, position, missing, children⟩ =>
      ⟨kind, named, field, text, position, missing, children⟩ ::
        preorderAll children

def preorderAll : List Node → List Node
  | [] => []
  | node :: rest => node.preorder ++ preorderAll rest

end

theorem sizeAll_append (left right : List Node) :
    sizeAll (left ++ right) = sizeAll left + sizeAll right := by
  induction left with
  | nil => simp [sizeAll]
  | cons node rest ih => simp [sizeAll, ih, Nat.add_assoc]

theorem preorder_eq (node : Node) :
    node.preorder = node :: preorderAll node.children := by
  cases node
  rfl

theorem preorderAll_eq_flatMap (nodes : List Node) :
    preorderAll nodes = nodes.flatMap preorder := by
  induction nodes with
  | nil => rfl
  | cons node rest ih => simp [preorderAll, ih]

theorem mem_preorder_iff {node other : Node} :
    other ∈ node.preorder ↔ other = node ∨ ∃ child ∈ node.children,
      other ∈ child.preorder := by
  rw [preorder_eq, List.mem_cons, preorderAll_eq_flatMap, List.mem_flatMap]

theorem size_eq (node : Node) : node.size = sizeAll node.children + 1 := by
  cases node
  rfl

/-- The nodes of a stack of subtrees in the order of visiting; the children of
the visited node go on top of the stack. -/
def walkFrom : List Node → List Node
  | [] => []
  | node :: stack => node :: walkFrom (node.children ++ stack)
termination_by stack => sizeAll stack
decreasing_by
  rw [sizeAll_append, sizeAll, size_eq]
  omega

def walk (node : Node) : List Node := walkFrom [node]

def child? (node : Node) (field : String) : Option Node :=
  node.children.find? (·.field = some field)

def isComment (node : Node) : Bool := node.kind = "comment"

def operands (node : Node) : List Node :=
  node.children.filter fun child => child.named && !child.isComment

def content? (node : Node) : Option Node :=
  if node.kind = "parenthesized_expression" then node.operands.head? else none

theorem size_lt_of_mem {nodes : List Node} {node : Node} (h : node ∈ nodes) :
    node.size ≤ sizeAll nodes := by
  induction nodes with
  | nil => simp at h
  | cons first rest ih =>
      rcases List.mem_cons.1 h with rfl | h
      · simp [sizeAll]
      · simp only [sizeAll]
        have := ih h
        omega

private theorem size_content?_lt {node inner : Node}
    (h : node.content? = some inner) :
    inner.size < node.size := by
  unfold content? at h
  split at h
  · have hmem : inner ∈ node.children :=
      (List.mem_filter.1 (List.mem_of_head? h)).1
    have := size_lt_of_mem hmem
    rw [size_eq node]
    omega
  · simp at h

def unwrapped (node : Node) : Node :=
  match _h : node.content? with
  | some inner => inner.unwrapped
  | none => node
termination_by node.size
decreasing_by exact size_content?_lt _h

def operator? (node : Node) : Option String :=
  (node.child? "operator").map (·.kind)

def isIdentifier (node : Node) (name : String) : Bool :=
  node.kind = "identifier" && node.text = name

end Node

namespace Tree

def missingText (node : Node) : String := "Missing " ++ Text.quote node.kind

def snippet (text : String) : String :=
  String.ofList ((text.toList.takeWhile (· != '\n')).take 20)

def unexpectedText (node : Node) : String :=
  "Unexpected " ++ Text.quote (snippet node.text)

def placeText (position : Position) : String :=
  "line " ++ toString (position.row + 1) ++ ", column " ++
    toString (position.column + 1)

def fault? (node : Node) : Option String :=
  if node.missing then
    some (missingText node ++ " at " ++ placeText node.position)
  else if node.kind = "ERROR" then
    some (unexpectedText node ++ " at " ++ placeText node.position)
  else none

def firstError (tree : Tree) : Option String :=
  if tree.hasError then
    some ((tree.root.walk.findSome? fault?).getD "Invalid syntax") else none

end Tree

end SnippetGrowth
