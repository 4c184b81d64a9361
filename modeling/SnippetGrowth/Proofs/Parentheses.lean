import Mathlib.Logic.Relation
import SnippetGrowth.Proofs.Likeness

/-!
# Parentheses in scripts

An expression that is put in parentheses, with comments behind the opening
one, means the same to a scan wherever it stands: as the update of a loop, the
argument of a call, a divisor, inside other parentheses, or around whole loops
and functions.  Only the parts that a scan reads by their field as they are,
the callee and the arguments of a call, an operator and a function's name, must
keep their place.
-/

namespace SnippetGrowth

namespace Node

/-- The fields of the parts that are read without looking into parentheses. -/
def fixedFields : List String := ["function", "name", "operator", "arguments"]

structure IsToken (kind : String) (node : Node) : Prop where
  kind : node.kind = kind
  unnamed : node.named = false
  leaf : node.children = []

def unfielded (node : Node) : Node := { node with field := none }

@[simp] theorem named_unfielded (node : Node) :
    node.unfielded.named = node.named := rfl

@[simp] theorem isComment_unfielded (node : Node) :
    node.unfielded.isComment = node.isComment := rfl

@[simp] theorem children_unfielded (node : Node) :
    node.unfielded.children = node.children := rfl

/-- Whether a node is a pair of parentheses around another one, in whose place
it stands. Comments may follow the opening parenthesis. -/
structure Encloses (outer inner : Node) : Prop where
  kind : outer.kind = "parenthesized_expression"
  named : outer.named = true
  field : outer.field = inner.field
  children : ∃ opening comments closing,
    outer.children = opening :: comments ++ [inner.unfielded, closing] ∧
      IsToken "(" opening ∧ IsToken ")" closing ∧
      ∀ comment ∈ comments, comment.isComment = true ∧ comment.children = []

/-- Whether a named child that is no comment becomes enclosed. It is not the
first one after the siblings before it that has a fixed field. -/
structure BecomesEnclosed (before : List Node) (inner outer : Node) : Prop where
  encloses : outer.Encloses inner
  named : inner.named = true
  solid : inner.isComment = false
  movable : ∀ field ∈ fixedFields, inner.field = some field →
    ∃ sibling ∈ before, sibling.field = some field

/-- Whether a tree becomes another one in that one node below the root is put in
parentheses. -/
inductive Parenthesised : Node → Node → Prop
  | here (parent : Node) (before after : List Node) {inner outer : Node}
      (h : BecomesEnclosed before inner outer) :
      Parenthesised { parent with children := before ++ inner :: after }
        { parent with children := before ++ outer :: after }
  | inside (parent : Node) (before after : List Node) {child other : Node}
      (h : Parenthesised child other) :
      Parenthesised { parent with children := before ++ child :: after }
        { parent with children := before ++ other :: after }

inductive Corresponds : Node → Node → Prop
  | same (node : Node) : Corresponds node node
  | inside {node other : Node} (h : Parenthesised node other) :
      Corresponds node other
  | enclosed {before : List Node} {inner outer : Node}
      (h : BecomesEnclosed before inner outer) :
      Corresponds inner outer

inductive Regrouped : Node → Node → Prop
  | same (node : Node) : Regrouped node node
  | unfielded (node : Node) : Regrouped node node.unfielded
  | inside {node other : Node} (h : Parenthesised node other) :
      Regrouped node other

/-! ## Places -/

theorem find?_exchanged {α : Type} {p : α → Bool} {item other : α}
    {before : List α} (hp : p item = p other)
    (h : p item = true → ∃ sibling ∈ before, p sibling = true) (after : List α) :
    (before ++ item :: after).find? p = (before ++ other :: after).find? p := by
  rw [List.find?_append, List.find?_append]
  cases hbefore : before.find? p with
  | some found => rfl
  | none =>
      have hitem : p item = false := by
        rw [Bool.eq_false_iff]
        intro hpasses
        obtain ⟨sibling, hsibling, htest⟩ := h hpasses
        exact List.find?_eq_none.1 hbefore sibling hsibling htest
      rw [List.find?_cons, List.find?_cons, ← hp, hitem]

theorem Parenthesised.kind_eq {node other : Node} (h : Parenthesised node other) :
    node.kind = other.kind := by
  cases h <;> rfl

theorem Parenthesised.named_eq {node other : Node}
    (h : Parenthesised node other) :
    node.named = other.named := by
  cases h <;> rfl

theorem Parenthesised.field_eq {node other : Node}
    (h : Parenthesised node other) :
    node.field = other.field := by
  cases h <;> rfl

theorem Parenthesised.text_eq {node other : Node} (h : Parenthesised node other) :
    node.text = other.text := by
  cases h <;> rfl

private theorem Encloses.isComment_eq_false {outer inner : Node}
    (h : outer.Encloses inner) :
    outer.isComment = false := by
  simp [isComment, h.kind]

theorem Corresponds.field_eq {node other : Node} (h : Corresponds node other) :
    node.field = other.field := by
  cases h with
  | same => rfl
  | inside h => exact h.field_eq
  | enclosed h => exact h.encloses.field.symm

private theorem Corresponds.isOperand_eq {node other : Node}
    (h : Corresponds node other) :
    (node.named && !node.isComment) = (other.named && !other.isComment) := by
  cases h with
  | same => rfl
  | inside h => rw [isComment, isComment, h.kind_eq, h.named_eq]
  | enclosed h =>
      rw [h.named, h.solid, h.encloses.named, h.encloses.isComment_eq_false]

theorem Parenthesised.rel_find? {node other : Node} (h : Parenthesised node other)
    {p : Node → Bool}
    (hp : ∀ {child child'}, Corresponds child child' → p child = p child') :
    Option.Rel Corresponds (node.children.find? p) (other.children.find? p) := by
  cases h with
  | here _ before after h =>
      exact rel_find?_exchanged .same (.enclosed h)
        (hp (.enclosed h)) before after
  | inside _ before after h =>
      exact rel_find?_exchanged .same (.inside h) (hp (.inside h)) before after

theorem Parenthesised.rel_operand {node other : Node}
    (h : Parenthesised node other) :
    Option.Rel Corresponds node.operands.head? other.operands.head? := by
  rw [operands, operands, List.head?_filter, List.head?_filter]
  exact h.rel_find? Corresponds.isOperand_eq

theorem Parenthesised.rel_fixed {node other : Node} (h : Parenthesised node other)
    {field : String} (hfield : field ∈ fixedFields) :
    Option.Rel (Relation.ReflGen Parenthesised) (node.child? field)
      (other.child? field) := by
  have hrefl : ∀ child : Node, Relation.ReflGen Parenthesised child child :=
    fun _ => .refl
  cases h with
  | @here _ before after inner outer h =>
      have hsame : (before ++ inner :: after).find? (·.field = some field) =
          (before ++ outer :: after).find? (·.field = some field) := by
        refine find?_exchanged (by rw [h.encloses.field]) ?_ after
        simpa using h.movable field hfield
      simp only [child?, hsame]
      exact rel_refl hrefl _
  | @inside _ before after child other h =>
      exact rel_find?_exchanged hrefl (.single h)
        (by rw [h.field_eq]) before after

/-! ## Inside parentheses -/

theorem Encloses.content? {outer inner : Node} (h : outer.Encloses inner)
    (named : inner.named = true) (solid : inner.isComment = false) :
    outer.content? = some inner.unfielded := by
  obtain ⟨opening, comments, closing, hchildren, hopening, hclosing, hcomments⟩ :=
    h.children
  have hskipped :
      comments.filter (fun child => child.named && !child.isComment) = [] := by
    rw [List.filter_eq_nil_iff]
    intro comment hcomment
    simp [(hcomments comment hcomment).1]
  simp [Node.content?, h.kind, operands, hchildren, hopening.unnamed, hskipped,
    named, solid]

private theorem Parenthesised.rel_content? {node other : Node}
    (h : Parenthesised node other) :
    Option.Rel Corresponds node.content? other.content? := by
  unfold content?
  rw [h.kind_eq]
  split
  · exact h.rel_operand
  · exact .none

private theorem unwrapped_unfielded (node : Node) :
    Regrouped node.unwrapped node.unfielded.unwrapped := by
  have hsame : node.unfielded.content? = node.content? := rfl
  cases hcontent : node.content? with
  | none =>
      rw [unwrapped_eq_self hcontent, unwrapped_eq_self (hsame.trans hcontent)]
      exact .unfielded node
  | some inner =>
      rw [unwrapped_of_content? hcontent,
        unwrapped_of_content? (hsame.trans hcontent)]
      exact .same _

theorem Corresponds.regrouped_unwrapped {node other : Node}
    (h : Corresponds node other) :
    Regrouped node.unwrapped other.unwrapped := by
  induction node using children_induction generalizing other with
  | step node ih =>
      cases h with
      | same => exact .same _
      | inside h =>
          rcases rel_cases h.rel_content? with
            ⟨hnone, hnone'⟩ | ⟨inner, inner', hsome, hsome', hinner⟩
          · rw [unwrapped_eq_self hnone, unwrapped_eq_self hnone']
            exact .inside h
          · rw [unwrapped_of_content? hsome, unwrapped_of_content? hsome']
            exact ih inner (content?_mem_children hsome) hinner
      | enclosed h =>
          -- The first pair to be taken off is the new one, and the rest is that
          -- of the node.
          rw [unwrapped_of_content? (h.encloses.content? h.named h.solid)]
          exact unwrapped_unfielded node

/-! ## Trees with one node in parentheses -/

theorem Regrouped.kind_eq {node other : Node} (h : Regrouped node other) :
    node.kind = other.kind := by
  cases h with
  | same => rfl
  | unfielded => rfl
  | inside h => exact h.kind_eq

theorem Regrouped.text_eq {node other : Node} (h : Regrouped node other) :
    node.text = other.text := by
  cases h with
  | same => rfl
  | unfielded => rfl
  | inside h => exact h.text_eq

theorem Regrouped.rel_child? {node other : Node} (h : Regrouped node other)
    (field : String) :
    Option.Rel Corresponds (node.child? field) (other.child? field) := by
  cases h with
  | same => exact rel_refl .same _
  | unfielded => exact rel_refl .same _
  | inside h => exact h.rel_find? fun hchild => by rw [hchild.field_eq]

theorem Regrouped.rel_fixed {node other : Node} (h : Regrouped node other)
    {field : String} (hfield : field ∈ fixedFields) :
    Option.Rel (Relation.ReflGen Parenthesised) (node.child? field)
      (other.child? field) := by
  cases h with
  | same => exact rel_refl (fun _ => .refl) _
  | unfielded => exact rel_refl (fun _ => .refl) _
  | inside h => exact h.rel_fixed hfield

theorem Regrouped.fixed_eq {node other : Node} (h : Regrouped node other)
    {field : String} (hfield : field ∈ fixedFields) :
    (node.child? field).map (fun part => (part.kind, part.text)) =
      (other.child? field).map fun part => (part.kind, part.text) := by
  refine map_eq_of_rel (h.rel_fixed hfield) ?_
  rintro part part' (_ | hpart)
  · rfl
  · rw [hpart.kind_eq, hpart.text_eq]

theorem Regrouped.operator?_eq {node other : Node} (h : Regrouped node other) :
    node.operator? = other.operator? := by
  have hfixed : "operator" ∈ fixedFields := by decide
  simpa [operator?, Function.comp_def] using
    congrArg (Option.map Prod.fst) (h.fixed_eq hfixed)

end Node

namespace Scan

open Node

/-! ## What is read -/

private theorem readNodes_eq_nil {node : Node} (hread : isRead node = false)
    (leaf : node.children = []) :
    readNodes node = [] := by
  simp [readNodes_eq, hread, leaf]

theorem readNodes_of_encloses {outer inner : Node} (h : outer.Encloses inner) :
    readNodes outer = readNodes inner.unfielded := by
  obtain ⟨opening, comments, closing, hchildren, hopening, hclosing, hcomments⟩ :=
    h.children
  have hskipped : comments.flatMap readNodes = [] := by
    rw [List.flatMap_eq_nil_iff]
    intro comment hcomment
    obtain ⟨hkind, hleaf⟩ := hcomments comment hcomment
    refine readNodes_eq_nil ?_ hleaf
    rw [isRead, of_decide_eq_true hkind]
    rfl
  have houter : isRead outer = false := by
    rw [isRead, h.kind]
    rfl
  have hopen : readNodes opening = [] := by
    refine readNodes_eq_nil ?_ hopening.leaf
    rw [isRead, hopening.kind]
    rfl
  have hclose : readNodes closing = [] := by
    refine readNodes_eq_nil ?_ hclosing.leaf
    rw [isRead, hclosing.kind]
    rfl
  rw [readNodes_eq outer]
  simp [houter, hchildren, hskipped, hopen, hclose]

theorem forall₂_same (nodes : List Node) : List.Forall₂ Regrouped nodes nodes :=
  List.forall₂_same.2 fun node _ => .same node

theorem forall₂_readNodes_unfielded (node : Node) :
    List.Forall₂ Regrouped (readNodes node) (readNodes node.unfielded) := by
  have hread : isRead node.unfielded = isRead node := rfl
  rw [readNodes_eq, readNodes_eq, children_unfielded, hread]
  split
  · exact .cons (.unfielded node) (forall₂_same _)
  · exact forall₂_same _

private theorem forall₂_readNodes_exchanged {parent child other : Node}
    {before after : List Node}
    (hparent : Parenthesised { parent with children := before ++ child :: after }
      { parent with children := before ++ other :: after })
    (hchild : List.Forall₂ Regrouped (readNodes child) (readNodes other)) :
    List.Forall₂ Regrouped (readNodes { parent with children :=
      before ++ child :: after })
      (readNodes { parent with children := before ++ other :: after }) := by
  have hrest :
      List.Forall₂ Regrouped ((before ++ child :: after).flatMap readNodes)
      ((before ++ other :: after).flatMap readNodes) := by
    simp only [List.flatMap_append, List.flatMap_cons]
    exact List.rel_append (forall₂_same _)
      (List.rel_append hchild (forall₂_same _))
  have hread : isRead { parent with children := before ++ other :: after } =
      isRead { parent with children := before ++ child :: after } := rfl
  rw [readNodes_eq, readNodes_eq, hread]
  split
  · exact .cons (.inside hparent) hrest
  · exact hrest

theorem forall₂_readNodes {node other : Node} (h : Parenthesised node other) :
    List.Forall₂ Regrouped (readNodes node) (readNodes other) := by
  induction h with
  | here parent before after h =>
      refine forall₂_readNodes_exchanged (.here parent before after h) ?_
      rw [readNodes_of_encloses h.encloses]
      exact forall₂_readNodes_unfielded _
  | inside parent before after h ih =>
      exact forall₂_readNodes_exchanged (.inside parent before after h) ih

private theorem rel_part? {node other : Node} (h : Regrouped node other)
    (field : String) :
    Option.Rel Regrouped (part? node field) (part? other field) :=
  rel_map (h.rel_child? field) fun _ _ => Corresponds.regrouped_unwrapped

private theorem rel_dividend? {node other : Node} (h : Regrouped node other) :
    Option.Rel Regrouped (dividend? node) (dividend? other) := by
  refine rel_bind (h.rel_fixed (by decide)) ?_
  rintro arguments arguments' (_ | harguments)
  · exact rel_refl .same _
  · exact rel_map harguments.rel_operand fun _ _ =>
      Corresponds.regrouped_unwrapped

private theorem isCallOf_eq (name : String) {call other : Node}
    (h : Regrouped call other) :
    isCallOf name call = isCallOf name other := by
  have hfixed : "function" ∈ fixedFields := by decide
  have hcallee := congrArg (Option.any fun part : String × String =>
    part.1 = "identifier" && part.2 = name) (h.fixed_eq hfixed)
  simp only [Option.any_map] at hcallee
  rw [isCallOf, isCallOf, h.kind_eq]
  exact congrArg _ hcallee

private theorem isLikeness_regrouped : IsLikeness Regrouped where
  kind := Regrouped.kind_eq
  operator := Regrouped.operator?_eq
  part := rel_part?
  dividend := rel_dividend?
  numeral h _ := h.text_eq
  name := by
    intro node other h _
    refine rel_mono (h.rel_fixed (by decide)) ?_
    intro name name' hname call otherCall hcall
    have htext : name.text = name'.text := by
      rcases hname with _ | hname
      · rfl
      · exact hname.text_eq
    rw [htext, isCallOf_eq _ hcall]
  visited := by
    intro node other h
    cases h with
    | same => exact forall₂_same _
    | unfielded => exact forall₂_readNodes_unfielded _
    | inside h => exact forall₂_readNodes h

/--
An expression anywhere in a clean tree can be put in parentheses, with
comments or without: the report or the failure stays the same.  Only the first
child with one of the fields that are read as they stand has to keep its place.
-/
theorem scanTree_parenthesised (tree : Tree) (root : Node)
    (clean : tree.hasError = false) (h : Parenthesised tree.root root) :
    scanTree { tree with root } = scanTree tree := by
  have hroot : Regrouped tree.root ({ tree with root } : Tree).root := .inside h
  exact (isLikeness_regrouped.scanTree_eq hroot clean clean).symm

def dividingScript (divisor : Node) : Node where
  kind := "function_declaration"
  children := [
    { kind := "identifier", field := some "name", text := "f" },
    { kind := "call_expression"
      children := [
        { kind := "identifier", field := some "function", text := "f" },
        { kind := "arguments", field := some "arguments"
          children := [
            { kind := "parenthesized_expression"
              children := [
                { kind := "binary_expression"
                  children := [
                    { kind := "/", named := false, field := some "operator" },
                    divisor] }] }] }] }]

def three : Node where
  kind := "number"
  field := some "right"
  text := "3"

def enclosedThree : Node where
  kind := "parenthesized_expression"
  field := some "right"
  children := [
    { kind := "(", named := false },
    { kind := "comment", text := "/* a third */" },
    three.unfielded,
    { kind := ")", named := false }]

def thirdReport : Report where
  findings := [
    ⟨"Recursive Function",
      "Recursive function with 1 calls, n/3 reduction, O(n) extra work",
      .ofLabel "n"⟩]
  space := .ofLabel "log_3 n"

private theorem parenthesised_dividingScript :
    Parenthesised (dividingScript three) (dividingScript enclosedThree) := by
  have encloses : enclosedThree.Encloses three := by
    refine ⟨rfl, rfl, rfl, _, [{ kind := "comment", text := "/* a third */" }],
      _, rfl, ?_, ?_, ?_⟩
    · exact ⟨rfl, rfl, rfl⟩
    · exact ⟨rfl, rfl, rfl⟩
    · simp [isComment]
  refine .inside { kind := "function_declaration" } [_] [] ?_
  refine .inside { kind := "call_expression" } [_] [] ?_
  refine .inside { kind := "arguments", field := some "arguments" } [] [] ?_
  refine .inside { kind := "parenthesized_expression" } [] [] ?_
  refine .here { kind := "binary_expression" } [_] [] ⟨encloses, rfl, rfl, ?_⟩
  decide

theorem scanTree_parenthesised_dividingScript :
    Parenthesised (dividingScript three) (dividingScript enclosedThree) ∧
    scanTree ⟨dividingScript enclosedThree, false⟩ = .ok thirdReport := by
  have returned : scanTree ⟨dividingScript three, false⟩ = .ok thirdReport := by
    decide +kernel
  refine ⟨parenthesised_dividingScript, ?_⟩
  rw [← returned]
  exact scanTree_parenthesised ⟨dividingScript three, false⟩ _ rfl
    parenthesised_dividingScript

end Scan

end SnippetGrowth
