import Mathlib.Data.List.Basic
import SnippetGrowth.Tree.Basic

/-!
# The order in which a tree is visited

The explicit stack of `walk` holds a forest that is still to be visited.  Its
invariant is that the nodes to come are the recursive order of that forest, so
`walk` is `preorder`.  What is gathered along the recursive order is gathered
by plain recursion over the tree, and the part of a subtree stands in the
whole without a gap.
-/

namespace SnippetGrowth.Node

/-! ## Recursive order -/

private theorem preorderAll_append (left right : List Node) :
    preorderAll (left ++ right) = preorderAll left ++ preorderAll right := by
  simp [preorderAll_eq_flatMap]

/-- The nodes still to be visited are the recursive order of the stack. -/
theorem walkFrom_eq_preorderAll (stack : List Node) :
    walkFrom stack = preorderAll stack := by
  fun_induction walkFrom stack with
  | case1 => rfl
  | case2 node stack ih =>
      rw [ih, preorderAll_append, preorderAll, preorder_eq, List.cons_append]

theorem walk_eq (node : Node) : node.walk = node.preorder := by
  simp [walk, walkFrom_eq_preorderAll, preorderAll]

/-! ## Subtrees -/

/-- Induction over a tree: a property of all children passes to the node. -/
theorem children_induction {motive : Node → Prop}
    (step : ∀ node : Node, (∀ child ∈ node.children, motive child) → motive node)
    (node : Node) : motive node := by
  refine step node fun child hchild => ?_
  have hsize : child.size < node.size := by
    have := size_lt_of_mem hchild
    rw [size_eq node]
    omega
  exact children_induction step child
termination_by node.size

theorem self_mem_preorder (node : Node) :
    node ∈ node.preorder := mem_preorder_iff.2 (.inl rfl)

theorem mem_preorder_of_mem_children {node child other : Node}
    (hchild : child ∈ node.children) (hother : other ∈ child.preorder) :
    other ∈ node.preorder :=
  mem_preorder_iff.2 (.inr ⟨child, hchild, hother⟩)

theorem mem_preorder_trans {node inner other : Node}
    (hinner : inner ∈ node.preorder) (hother : other ∈ inner.preorder) :
    other ∈ node.preorder := by
  induction node using children_induction with
  | step node ih =>
      rcases mem_preorder_iff.1 hinner with rfl | ⟨child, hchild, hinner⟩
      · exact hother
      · exact mem_preorder_of_mem_children hchild (ih child hchild hinner)

theorem child?_mem_children {node child : Node} {field : String}
    (h : node.child? field = some child) : child ∈ node.children :=
  List.mem_of_find?_eq_some h

theorem child?_mem_preorder {node child : Node} {field : String}
    (h : node.child? field = some child) : child ∈ node.preorder :=
  mem_preorder_of_mem_children (child?_mem_children h) (self_mem_preorder child)

theorem mem_children_of_mem_operands {node operand : Node}
    (h : operand ∈ node.operands) :
    operand ∈ node.children :=
  (List.mem_filter.1 h).1

theorem content?_mem_children {node inner : Node}
    (h : node.content? = some inner) :
    inner ∈ node.children := by
  unfold content? at h
  split at h
  · exact mem_children_of_mem_operands (List.mem_of_head? h)
  · contradiction

theorem unwrapped_of_content? {node inner : Node}
    (h : node.content? = some inner) :
    node.unwrapped = inner.unwrapped := by
  rw [unwrapped]
  split
  · next other hother => rw [Option.some.inj (h.symm.trans hother)]
  · next hnone => rw [h] at hnone; contradiction

theorem unwrapped_eq_self {node : Node} (h : node.content? = none) :
    node.unwrapped = node := by
  rw [unwrapped]
  split
  · next inner hinner => rw [h] at hinner; contradiction
  · rfl

theorem unwrapped_mem_preorder (node : Node) :
    node.unwrapped ∈ node.preorder := by
  induction node using children_induction with
  | step node ih =>
      cases hcontent : node.content? with
      | none =>
          rw [unwrapped_eq_self hcontent]
          exact self_mem_preorder node
      | some inner =>
          have hchild := content?_mem_children hcontent
          rw [unwrapped_of_content? hcontent]
          exact mem_preorder_of_mem_children hchild (ih inner hchild)

/-! ## Gathering by recursion -/

variable {α : Type}

mutual

/-- What each node of a tree shows by itself, a node before its children and a
child's subtree before the next child. -/
def gather (own : Node → List α) : Node → List α
  | ⟨kind, named, field, text, position, missing, children⟩ =>
      own ⟨kind, named, field, text, position, missing, children⟩ ++
        gatherAll own children

def gatherAll (own : Node → List α) : List Node → List α
  | [] => []
  | node :: rest => gather own node ++ gatherAll own rest

end

private theorem gatherAll_eq_flatMap (own : Node → List α) (nodes : List Node) :
    gatherAll own nodes = nodes.flatMap (gather own) := by
  induction nodes with
  | nil => rfl
  | cons node rest ih => simp [gatherAll, ih]

theorem gather_eq (own : Node → List α) (node : Node) :
    gather own node = own node ++ node.children.flatMap (gather own) := by
  rw [← gatherAll_eq_flatMap]
  cases node
  rfl

theorem gather_eq_flatMap_preorder (own : Node → List α) (node : Node) :
    gather own node = node.preorder.flatMap own := by
  induction node using children_induction with
  | step node ih =>
      rw [gather_eq, preorder_eq, List.flatMap_cons, preorderAll_eq_flatMap,
        List.flatMap_assoc]
      exact congrArg (own node ++ ·) (List.flatMap_congr ih)

private theorem gather_infix_of_mem_children (own : Node → List α)
    {node child : Node} (hchild : child ∈ node.children) :
    gather own child <:+: gather own node := by
  obtain ⟨before, after, hsplit⟩ := List.append_of_mem hchild
  refine ⟨own node ++ before.flatMap (gather own), after.flatMap (gather own), ?_⟩
  rw [gather_eq own node, hsplit]
  simp

theorem gather_infix_of_mem_preorder (own : Node → List α) {node inner : Node}
    (hinner : inner ∈ node.preorder) : gather own inner <:+: gather own node := by
  induction node using children_induction with
  | step node ih =>
      rcases mem_preorder_iff.1 hinner with rfl | ⟨child, hchild, hinner⟩
      · exact List.infix_rfl
      · exact (ih child hchild hinner).trans
          (gather_infix_of_mem_children own hchild)

end SnippetGrowth.Node
