import Mathlib.Data.List.Basic
import Mathlib.Logic.Function.Iterate
import SnippetGrowth.Proofs.Traversal

/-!
# Every place of a tree in turn

A node of a tree is told from an equal one by its place, the list of the
children to go to from the root down.  In the lexicographic order of places a
node comes before its descendants, and a child with all its descendants before
the next child.  A walk visits every place once, in this order.

The walk is run by a loop over a stack with its top at the end: the top is
visited, and its children go on the stack, the last one first.  What was visited
and what the stack still holds always make up the walk, so the loop ends after
as many rounds as the tree has nodes.
-/

namespace SnippetGrowth

namespace Node

/-! ## Places -/

def at? : Node → List Nat → Option Node
  | node, [] => some node
  | node, i :: place => node.children[i]?.bind fun child => child.at? place

mutual

/-- The places of a tree in the order of the walk. -/
def places : Node → List (List Nat)
  | ⟨_, _, _, _, _, _, children⟩ => [] :: placesFrom 0 children

def placesFrom : Nat → List Node → List (List Nat)
  | _, [] => []
  | i, node :: rest => node.places.map (i :: ·) ++ placesFrom (i + 1) rest

end

theorem places_eq (node : Node) :
    node.places = [] :: placesFrom 0 node.children := by
  cases node
  rfl

theorem mem_placesFrom_iff {start : Nat} {nodes : List Node} {place : List Nat} :
    place ∈ placesFrom start nodes ↔
      ∃ i below child, place = (start + i) :: below ∧ nodes[i]? = some child ∧
        below ∈ child.places := by
  induction nodes generalizing start with
  | nil => simp [placesFrom]
  | cons node rest ih =>
      rw [placesFrom, List.mem_append, List.mem_map, ih]
      constructor
      · rintro (⟨below, hbelow, rfl⟩ | ⟨i, below, child, rfl, hchild, hbelow⟩)
        · exact ⟨0, below, node, rfl, rfl, hbelow⟩
        · exact ⟨i + 1, below, child,
            by rw [Nat.add_right_comm, Nat.add_assoc], hchild, hbelow⟩
      · rintro ⟨i, below, child, rfl, hchild, hbelow⟩
        cases i with
        | zero =>
            cases hchild
            exact .inl ⟨below, hbelow, rfl⟩
        | succ i =>
            exact .inr ⟨i, below, child,
              by rw [Nat.add_right_comm, Nat.add_assoc], hchild, hbelow⟩

theorem mem_places_iff {node : Node} {place : List Nat} :
    place ∈ node.places ↔ (node.at? place).isSome = true := by
  induction place generalizing node with
  | nil => simp [places_eq, at?]
  | cons i below ih =>
      have hplaces : i :: below ∈ node.places ↔
          i :: below ∈ placesFrom 0 node.children := by
        simp [places_eq]
      rw [hplaces, mem_placesFrom_iff, at?]
      cases hchild : node.children[i]? with
      | none => simp [hchild]
      | some child => simp [hchild, ih]

private theorem pairwise_placesFrom {nodes : List Node} (start : Nat)
    (h : ∀ node ∈ nodes, node.places.Pairwise (· < ·)) :
    (placesFrom start nodes).Pairwise (· < ·) := by
  induction nodes generalizing start with
  | nil => exact .nil
  | cons node rest ih =>
      rw [List.forall_mem_cons] at h
      rw [placesFrom, List.pairwise_append]
      refine ⟨?_, ih (start + 1) h.2, ?_⟩
      · refine List.pairwise_map.2 (h.1.imp fun hless => ?_)
        exact List.cons_lt_cons_iff.2 (.inr ⟨rfl, hless⟩)
      · intro place hplace later hlater
        obtain ⟨below, -, rfl⟩ := List.mem_map.1 hplace
        obtain ⟨i, other, -, rfl, -⟩ := mem_placesFrom_iff.1 hlater
        exact List.cons_lt_cons_iff.2 (.inl (by omega))

theorem pairwise_places (node : Node) : node.places.Pairwise (· < ·) := by
  induction node using children_induction with
  | step node ih =>
      have hroot : ∀ place ∈ placesFrom 0 node.children, [] < place := by
        intro place hplace
        obtain ⟨i, below, -, rfl, -⟩ := mem_placesFrom_iff.1 hplace
        exact List.nil_lt_cons _ _
      rw [places_eq, List.pairwise_cons]
      exact ⟨hroot, pairwise_placesFrom 0 ih⟩

private theorem map_at?_placesFrom {node : Node} (front : List Node)
    {nodes : List Node} (hchildren : node.children = front ++ nodes)
    (h : ∀ child ∈ nodes, child.places.map child.at? = child.preorder.map some) :
    (placesFrom front.length nodes).map node.at? =
      (preorderAll nodes).map some := by
  induction nodes generalizing front with
  | nil => rfl
  | cons child rest ih =>
      rw [List.forall_mem_cons] at h
      have hchild : node.children[front.length]? = some child := by
        simp [hchildren]
      have hbelow : node.at? ∘ (front.length :: ·) = child.at? := by
        funext below
        simp [at?, hchild]
      have hrest := ih (front ++ [child]) (by simp [hchildren]) h.2
      rw [List.length_append, List.length_singleton] at hrest
      rw [placesFrom, List.map_append, List.map_map, hbelow, h.1, hrest,
        preorderAll, List.map_append]

/-- The recursive order holds the nodes at the places of the tree, in the order
of the places. -/
theorem map_at?_places (node : Node) :
    node.places.map node.at? = node.preorder.map some := by
  induction node using children_induction with
  | step node ih =>
      rw [places_eq, preorder_eq, List.map_cons, List.map_cons, at?]
      exact congrArg (some node :: ·)
        (map_at?_placesFrom [] (List.nil_append _).symm ih)

end Node

/-! ## The loop -/

/-- A walk under way: the nodes still to be visited with their descendants, and
those visited. -/
structure Visit where
  stack : List Node
  visited : List Node

namespace Visit

open Node

def start (root : Node) : Visit := ⟨[root], []⟩

def next (visit : Visit) : Visit :=
  match visit.stack.getLast? with
  | none => visit
  | some node =>
      ⟨visit.stack.dropLast ++ node.children.reverse, visit.visited ++ [node]⟩

def walked (visit : Visit) : List Node :=
  visit.visited ++ walkFrom visit.stack.reverse

theorem next_concat (stack visited : List Node) (node : Node) :
    (⟨stack ++ [node], visited⟩ : Visit).next =
      ⟨stack ++ node.children.reverse, visited ++ [node]⟩ := by
  simp [next]

theorem walked_next (visit : Visit) : visit.next.walked = visit.walked := by
  obtain ⟨stack, visited⟩ := visit
  rcases List.eq_nil_or_concat stack with rfl | ⟨stack, node, rfl⟩
  · rfl
  · rw [List.concat_eq_append, next_concat]
    simp [walked, walkFrom]

theorem length_visited_next {visit : Visit} (h : visit.stack ≠ []) :
    visit.next.visited.length = visit.visited.length + 1 := by
  obtain ⟨stack, visited⟩ := visit
  obtain ⟨stack, node, rfl⟩ := (List.eq_nil_or_concat stack).resolve_left h
  rw [List.concat_eq_append, next_concat, List.length_append,
    List.length_singleton]

private theorem next_of_stack_eq_nil {visit : Visit} (h : visit.stack = []) :
    visit.next = visit := by
  simp [next, h]

theorem stack_eq_nil_iff (visit : Visit) :
    visit.stack = [] ↔ visit.walked.length ≤ visit.visited.length := by
  obtain ⟨stack, visited⟩ := visit
  rcases List.eq_nil_or_concat stack with rfl | ⟨stack, node, rfl⟩
  · simp [walked, walkFrom]
  · simp [walked, walkFrom]

theorem walked_iterate (root : Node) (rounds : Nat) :
    (next^[rounds] (start root)).walked = root.walk := by
  induction rounds with
  | zero => rfl
  | succ rounds ih => rw [Function.iterate_succ_apply', walked_next, ih]

theorem length_visited_iterate (root : Node) (rounds : Nat) :
    (next^[rounds] (start root)).visited.length =
      min rounds root.walk.length := by
  induction rounds with
  | zero => simp [start]
  | succ rounds ih =>
      have hover := stack_eq_nil_iff (next^[rounds] (start root))
      rw [walked_iterate, ih] at hover
      rw [Function.iterate_succ_apply']
      by_cases hstack : (next^[rounds] (start root)).stack = []
      · have hall := hover.1 hstack
        rw [next_of_stack_eq_nil hstack, ih]
        omega
      · have hsome := hover.not.1 hstack
        rw [length_visited_next hstack, ih]
        omega

private theorem visited_iterate (root : Node) (rounds : Nat) :
    (next^[rounds] (start root)).visited = root.walk.take rounds := by
  have hfront : (next^[rounds] (start root)).visited <+: root.walk := by
    rw [← walked_iterate root rounds]
    exact List.prefix_append _ _
  rw [List.prefix_iff_eq_take.1 hfront, length_visited_iterate,
    List.take_eq_take_iff]
  omega

private theorem stack_iterate_eq_nil_iff (root : Node) (rounds : Nat) :
    (next^[rounds] (start root)).stack = [] ↔ root.walk.length ≤ rounds := by
  rw [stack_eq_nil_iff, walked_iterate, length_visited_iterate]
  omega

end Visit

/--
The loop ends after as many rounds as the walk has nodes, and each round until
then visits the next one of them.  The walk is the recursive order of the tree.
It visits the nodes at the places of the tree, all of them, and in ascending
order, so no place twice.
-/
theorem walk_visits_places_in_order (root : Node) :
    (∀ rounds,
      (Visit.next^[rounds] (.start root)).visited = root.walk.take rounds ∧
      ((Visit.next^[rounds] (.start root)).stack = [] ↔
        root.walk.length ≤ rounds)) ∧
    root.walk = root.preorder ∧
    root.walk.map some = root.places.map root.at? ∧
    (∀ place, place ∈ root.places ↔ (root.at? place).isSome = true) ∧
    root.places.Pairwise (· < ·) := by
  refine ⟨fun rounds => ?_, root.walk_eq, ?_, fun _ => Node.mem_places_iff,
    root.pairwise_places⟩
  · exact ⟨Visit.visited_iterate root rounds,
      Visit.stack_iterate_eq_nil_iff root rounds⟩
  · rw [root.walk_eq, Node.map_at?_places]

end SnippetGrowth
