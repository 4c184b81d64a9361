import Mathlib.Logic.Function.Basic
import SnippetGrowth.Proofs.Likeness

/-!
# Renaming in scripts

A scan never shows the text of a name; it only asks whether two names are the
same.  So another injective choice of texts, for all nodes but the numerals,
leaves the report and the failure of a tree as they are.  The one condition is
that no function is named by a numeral, which would keep its text while the
calls change theirs.
-/

namespace SnippetGrowth

namespace Node

mutual

/-- The tree with another text at each node but the numerals. -/
def renamed (r : String → String) : Node → Node
  | ⟨kind, named, field, text, position, missing, children⟩ =>
      ⟨kind, named, field, if kind = "number" then text else r text, position,
        missing, renamedAll r children⟩

def renamedAll (r : String → String) : List Node → List Node
  | [] => []
  | node :: rest => node.renamed r :: renamedAll r rest

end

variable (r : String → String)

theorem renamedAll_eq_map (nodes : List Node) :
    renamedAll r nodes = nodes.map (renamed r) := by
  induction nodes with
  | nil => rfl
  | cons node rest ih => rw [renamedAll, ih, List.map_cons]

@[simp] theorem kind_renamed (node : Node) :
    (node.renamed r).kind = node.kind := by
  cases node
  rfl

@[simp] theorem named_renamed (node : Node) :
    (node.renamed r).named = node.named := by
  cases node
  rfl

@[simp] theorem field_renamed (node : Node) :
    (node.renamed r).field = node.field := by
  cases node
  rfl

theorem text_renamed (node : Node) :
    (node.renamed r).text = if node.kind = "number" then node.text
      else r node.text := by
  cases node
  rfl

@[simp] theorem children_renamed (node : Node) :
    (node.renamed r).children = node.children.map (renamed r) := by
  cases node
  exact renamedAll_eq_map r _

theorem child?_renamed (node : Node) (field : String) :
    (node.renamed r).child? field = (node.child? field).map (renamed r) := by
  have hfield : (fun child : Node => decide (child.field = some field)) ∘
      renamed r =
      fun child : Node => decide (child.field = some field) := by
    funext child
    simp
  rw [child?, children_renamed, List.find?_map, hfield]
  rfl

theorem operands_renamed (node : Node) :
    (node.renamed r).operands = node.operands.map (renamed r) := by
  simp [operands, isComment, List.filter_map, Function.comp_def]

private theorem content?_renamed (node : Node) :
    (node.renamed r).content? = node.content?.map (renamed r) := by
  unfold content?
  rw [kind_renamed, operands_renamed, List.head?_map]
  split <;> rfl

theorem unwrapped_renamed (node : Node) :
    (node.renamed r).unwrapped = node.unwrapped.renamed r := by
  induction node using children_induction with
  | step node ih =>
      have hrenamed := content?_renamed r node
      cases hcontent : node.content? with
      | none =>
          rw [hcontent, Option.map_none] at hrenamed
          rw [unwrapped_eq_self hcontent, unwrapped_eq_self hrenamed]
      | some inner =>
          rw [hcontent, Option.map_some] at hrenamed
          rw [unwrapped_of_content? hcontent, unwrapped_of_content? hrenamed]
          exact ih inner (content?_mem_children hcontent)

theorem operator?_renamed (node : Node) :
    (node.renamed r).operator? = node.operator? := by
  simp [operator?, child?_renamed, Function.comp_def]

theorem preorder_renamed (node : Node) :
    (node.renamed r).preorder = node.preorder.map (renamed r) := by
  induction node using children_induction with
  | step node ih =>
      rw [preorder_eq, preorder_eq, preorderAll_eq_flatMap,
        preorderAll_eq_flatMap, children_renamed, List.flatMap_map, List.map_cons,
        List.map_flatMap]
      exact congrArg _ (List.flatMap_congr ih)

end Node

def Tree.renamed (r : String → String) (tree : Tree) : Tree :=
  { tree with root := tree.root.renamed r }

namespace Scan

open Node

/-- Whether no function is named by a numeral. -/
def NamesNoNumeral (node : Node) : Prop :=
  ∀ declaration ∈ node.preorder, isDeclaration declaration = true →
    ∀ name ∈ declaration.child? "name", name.kind ≠ "number"

instance (node : Node) : Decidable (NamesNoNumeral node) :=
  inferInstanceAs (Decidable (∀ declaration ∈ node.preorder, _ → _))

def RenamedTo (r : String → String) (node other : Node) : Prop :=
  other = node.renamed r ∧ NamesNoNumeral node

variable {r : String → String}

theorem NamesNoNumeral.of_mem_preorder {node inner : Node}
    (h : NamesNoNumeral node) (hinner : inner ∈ node.preorder) :
    NamesNoNumeral inner :=
  fun declaration hdeclaration =>
    h declaration (mem_preorder_trans hinner hdeclaration)

private theorem isIdentifier_renamed (injective : Function.Injective r)
    {name : Node} (hname : name.kind ≠ "number") (node : Node) :
    (node.renamed r).isIdentifier (name.renamed r).text =
      node.isIdentifier name.text := by
  rw [isIdentifier, isIdentifier, kind_renamed, text_renamed, text_renamed,
    if_neg hname]
  by_cases h : node.kind = "identifier"
  · simp [h, injective.eq_iff]
  · simp [h]

theorem isCallOf_renamed (injective : Function.Injective r) {name : Node}
    (hname : name.kind ≠ "number") (node : Node) :
    isCallOf (name.renamed r).text (node.renamed r) =
      isCallOf name.text node := by
  rw [isCallOf, isCallOf, child?_renamed, kind_renamed]
  cases node.child? "function" with
  | none => rfl
  | some callee => simp [isIdentifier_renamed injective hname]

theorem part?_renamed (node : Node) (field : String) :
    part? (node.renamed r) field = (part? node field).map (renamed r) := by
  simp [part?, child?_renamed, unwrapped_renamed, Function.comp_def]

theorem dividend?_renamed (call : Node) :
    dividend? (call.renamed r) = (dividend? call).map (renamed r) := by
  rw [dividend?, dividend?, child?_renamed]
  cases call.child? "arguments" with
  | none => rfl
  | some arguments =>
      simp [operands_renamed, unwrapped_renamed, Function.comp_def]

private theorem isRead_renamed (node : Node) :
    isRead (node.renamed r) = isRead node := by
  rw [isRead, isRead, kind_renamed]

private theorem readNodes_renamed (node : Node) :
    readNodes (node.renamed r) = (readNodes node).map (renamed r) := by
  rw [readNodes, readNodes, preorder_renamed, List.filter_map]
  exact congrArg _ (List.filter_congr fun inner _ => isRead_renamed inner)

private theorem rel_renamedTo {node : Node} {found other : Option Node}
    (h : NamesNoNumeral node) (hother : other = found.map (renamed r))
    (hfound : ∀ part ∈ found, part ∈ node.preorder) :
    Option.Rel (RenamedTo r) found other := by
  subst hother
  cases found with
  | none => exact .none
  | some part => exact .some ⟨rfl, h.of_mem_preorder (hfound part rfl)⟩

private theorem isLikeness_renamedTo (injective : Function.Injective r) :
    IsLikeness (RenamedTo r) where
  kind := by
    rintro node other ⟨rfl, -⟩
    rw [kind_renamed]
  operator := by
    rintro node other ⟨rfl, -⟩
    rw [operator?_renamed]
  part := by
    rintro node other ⟨rfl, h⟩ field
    exact rel_renamedTo h (part?_renamed node field) fun _ =>
      mem_preorder_of_part?
  dividend := by
    rintro node other ⟨rfl, h⟩
    exact rel_renamedTo h (dividend?_renamed node) fun _ =>
      mem_preorder_of_dividend?
  numeral := by
    rintro node other ⟨rfl, -⟩ hnumber
    rw [text_renamed, if_pos hnumber]
  name := by
    rintro node other ⟨rfl, h⟩ declares
    have hname := h node (self_mem_preorder node) declares
    rw [child?_renamed]
    cases hchild : node.child? "name" with
    | none => exact .none
    | some name =>
        refine .some ?_
        rintro call otherCall ⟨rfl, -⟩
        exact (isCallOf_renamed injective (hname name hchild) call).symm
  visited := by
    rintro node other ⟨rfl, h⟩
    rw [readNodes_renamed, List.forall₂_map_right_iff, List.forall₂_same]
    intro inner hinner
    exact ⟨rfl, h.of_mem_preorder (List.mem_filter.1 hinner).1⟩

/--
The texts of names reach neither the report nor the failure of a clean tree:
any injective choice of other texts gives the same outcome, as long as no
function is named by a numeral.  The empty text of a node without one need not
be kept.
-/
theorem scanTree_renamed (tree : Tree) (r : String → String)
    (injective : Function.Injective r) (clean : tree.hasError = false)
    (named : NamesNoNumeral tree.root) :
    scanTree (tree.renamed r) = scanTree tree := by
  have hroot : RenamedTo r tree.root (tree.renamed r).root := ⟨rfl, named⟩
  exact ((isLikeness_renamedTo injective).scanTree_eq hroot clean clean).symm

def backwards (name : String) : String := String.ofList name.toList.reverse

theorem backwards_injective : Function.Injective backwards := by
  intro name other h
  simpa [backwards, ← String.toList_inj] using h

def callOf (name : String) (argument : Node) : Node where
  kind := "call_expression"
  children := [
    { kind := "identifier", field := some "function", text := name },
    { kind := "arguments", field := some "arguments", children := [argument] }]

def mirroredScript : Node where
  kind := "program"
  children := [
    { kind := "function_declaration"
      children := [
        { kind := "identifier", field := some "name", text := "tac" },
        callOf "cat" { kind := "identifier", text := "n" },
        callOf "tac" {
          kind := "binary_expression"
          children := [
            { kind := "identifier", field := some "left", text := "n" },
            { kind := "/", named := false, field := some "operator",
              text := "/" },
            { kind := "number", field := some "right", text := "12" }] }] }]

def mirroredReport : Report where
  findings := [
    ⟨"Recursive Function",
      "Recursive function with 1 calls, n/12 reduction, O(n) extra work",
      .ofLabel "n"⟩]
  space := .ofLabel "log_12 n"

theorem scanTree_renamed_mirroredScript :
    (Function.Injective backwards ∧ backwards "" = "" ∧
      NamesNoNumeral mirroredScript) ∧
    (mirroredScript.renamed backwards).preorder.map (·.text) =
      ["", "", "cat", "", "tac", "", "n", "", "cat", "", "", "n", "/", "12"] ∧
    scanTree ⟨mirroredScript.renamed backwards, false⟩ = .ok mirroredReport := by
  have returned : scanTree ⟨mirroredScript, false⟩ = .ok mirroredReport := by
    decide +kernel
  have named : NamesNoNumeral mirroredScript := by decide +kernel
  refine ⟨⟨backwards_injective, by decide, named⟩, by decide +kernel, ?_⟩
  rw [← returned]
  exact scanTree_renamed ⟨mirroredScript, false⟩ backwards backwards_injective
    rfl named

end Scan

end SnippetGrowth
