import SnippetGrowth.Proofs.ScriptFindings

/-!
# What a refused tree is said to be wrong in

A tree is refused by the verdict at its root, and described by the first node
in the recursive order that is missing or covers an error.  Nothing in the tree
has to be such a node: then the description names no place.
-/

namespace SnippetGrowth

open Text

/-! ## The first element that is described -/

def IsFirst {α : Type} (p : α → Prop) (items : List α) (first : α) : Prop :=
  p first ∧ ∃ before after, items = before ++ first :: after ∧
    ∀ item ∈ before, ¬ p item

theorem findSome?_of_isFirst {α β : Type} {f : α → Option β} {p : α → Prop}
    (hf : ∀ item, f item = none ↔ ¬ p item) {items : List α} {first : α}
    (h : IsFirst p items first) : items.findSome? f = f first := by
  obtain ⟨hfirst, before, after, rfl, hbefore⟩ := h
  have hnone : before.findSome? f = none :=
    List.findSome?_eq_none_iff.2 fun item hitem =>
      (hf item).2 (hbefore item hitem)
  obtain ⟨found, hfound⟩ := Option.ne_none_iff_exists'.1 fun hnone =>
    (hf first).1 hnone hfirst
  rw [List.findSome?_append, hnone,
    List.findSome?_cons_of_isSome (by simp [hfound])]
  rfl

theorem exists_isFirst {α : Type} {p : α → Prop} {items : List α}
    (h : ∃ item ∈ items, p item) :
    ∃ first, IsFirst p items first := by
  induction items with
  | nil => simp at h
  | cons item items ih =>
      by_cases hitem : p item
      · exact ⟨item, hitem, [], items, rfl, by simp⟩
      · obtain ⟨other, hother, hp⟩ := h
        have htail : other ∈ items := by
          rcases List.mem_cons.1 hother with rfl | htail
          · contradiction
          · exact htail
        obtain ⟨first, hfirst, before, after, rfl, hbefore⟩ :=
          ih ⟨other, htail, hp⟩
        refine ⟨first, hfirst, item :: before, after, rfl, ?_⟩
        simpa [hitem] using hbefore

/-! ## The first line of a text -/

private theorem head?_split (separator : Char) (text : List Char) :
    (split separator text).head? = some (text.takeWhile (· != separator)) := by
  induction text with
  | nil => rfl
  | cons c text ih =>
      obtain ⟨piece, pieces, hsplit⟩ :=
        List.exists_cons_of_ne_nil (split_ne_nil separator text)
      rw [hsplit] at ih
      by_cases hc : c = separator
      · simp [split, hc]
      · simpa [split, hc, hsplit] using ih

namespace Tree

/-- Whether a text is the beginning of the first line of another, cut off behind
20 characters. -/
def IsSnippet (text cut : String) : Prop :=
  ∃ line, (lines text.toList).head? = some line ∧ cut.toList <+: line ∧
    cut.length = min 20 line.length

theorem isSnippet_snippet (text : String) : IsSnippet text (snippet text) := by
  refine ⟨text.toList.takeWhile (· != '\n'), head?_split '\n' text.toList, ?_, ?_⟩
  · simpa [snippet] using List.take_prefix 20 _
  · simp [snippet, ← String.length_toList]

/-! ## Faulty nodes -/

def IsFaulty (node : Node) : Prop := node.missing = true ∨ node.kind = "ERROR"

/-- How a faulty node is described; what is missing is said to be so even if it
covers an error. -/
inductive Describes (node : Node) : String → Prop
  | missing (h : node.missing = true) :
      Describes node ("Missing " ++ quote node.kind ++ " at line " ++
        toString (node.position.row + 1) ++ ", column " ++
          toString (node.position.column + 1))
  | unexpected (present : node.missing = false) (h : node.kind = "ERROR")
      (cut : String)
      (begins : IsSnippet node.text cut) :
      Describes node ("Unexpected " ++ quote cut ++ " at line " ++
        toString (node.position.row + 1) ++ ", column " ++
          toString (node.position.column + 1))

theorem fault?_eq_none_iff {node : Node} :
    fault? node = none ↔ ¬ IsFaulty node := by
  unfold fault? IsFaulty
  split_ifs with hmissing hkind <;> simp [*]

private theorem append_placeText (text : String) (position : Position) :
    text ++ " at " ++ placeText position = text ++ " at line " ++
      toString (position.row + 1) ++ ", column " ++
        toString (position.column + 1) := by
  have hjoined : " at " ++ "line " = " at line " := by decide
  simp only [placeText, ← hjoined, String.append_assoc]

private theorem describes_of_fault? {node : Node} {text : String}
    (h : fault? node = some text) :
    Describes node text := by
  unfold fault? at h
  split_ifs at h with hmissing hkind
  · cases h
    rw [append_placeText]
    exact .missing hmissing
  · cases h
    rw [append_placeText]
    exact .unexpected (Bool.eq_false_iff.2 hmissing) hkind
      _ (isSnippet_snippet node.text)

theorem Describes.ne_invalid {node : Node} {text : String}
    (h : Describes node text) :
    text ≠ "Invalid syntax" := by
  have hinvalid : "Invalid syntax".toList.head? = some 'I' := by decide
  have hhead : text.toList.head? ≠ some 'I' := by
    cases h with
    | missing => simp [String.toList_append]
    | unexpected => simp [String.toList_append]
  rintro rfl
  exact hhead hinvalid

/-! ## The description of a tree -/

theorem firstError_of_hasError {tree : Tree} (h : tree.hasError = true) :
    tree.firstError =
      some ((tree.root.preorder.findSome? fault?).getD "Invalid syntax") := by
  rw [firstError, if_pos h, Node.walk_eq]

theorem firstError_of_isFirst {tree : Tree} (h : tree.hasError = true)
    {node : Node} (hfirst : IsFirst IsFaulty tree.root.preorder node) :
    ∃ text, tree.firstError = some text ∧ Describes node text := by
  obtain ⟨text, htext⟩ := Option.ne_none_iff_exists'.1 fun hnone =>
    fault?_eq_none_iff.1 hnone hfirst.1
  refine ⟨text, ?_, describes_of_fault? htext⟩
  rw [firstError_of_hasError h,
    findSome?_of_isFirst (fun _ => fault?_eq_none_iff) hfirst, htext]
  rfl

private theorem firstError_of_not_isFaulty {tree : Tree}
    (h : tree.hasError = true)
    (hnone : ∀ node ∈ tree.root.preorder, ¬ IsFaulty node) :
    tree.firstError = some "Invalid syntax" := by
  have hfind : tree.root.preorder.findSome? fault? = none :=
    List.findSome?_eq_none_iff.2 fun node hnode =>
      fault?_eq_none_iff.2 (hnone node hnode)
  rw [firstError_of_hasError h, hfind]
  rfl

theorem firstError_eq_invalid_iff {tree : Tree} (h : tree.hasError = true) :
    tree.firstError = some "Invalid syntax" ↔
      ∀ node ∈ tree.root.preorder, ¬ IsFaulty node := by
  constructor
  · intro hinvalid node hnode hfaulty
    obtain ⟨first, hfirst⟩ := exists_isFirst ⟨node, hnode, hfaulty⟩
    obtain ⟨text, htext, hdescribes⟩ := firstError_of_isFirst h hfirst
    exact hdescribes.ne_invalid (Option.some.inj (htext.symm.trans hinvalid))
  · exact firstError_of_not_isFaulty h

end Tree

/-! ## Refused trees -/

theorem isSome_firstError_iff {tree : Tree} :
    (∃ text, tree.firstError = some text) ↔ tree.hasError = true := by
  cases hverdict : tree.hasError <;> simp [Tree.firstError, hverdict]

theorem scanTree_of_firstError {tree : Tree} {text : String}
    (h : tree.firstError = some text) :
    Scan.scanTree tree = .ok {
      findings := []
      space := .ofLabel "1"
      error := some ("JavaScript parsing error: Syntax error: " ++ text) } := by
  rw [Scan.scanTree, h]
  rfl

private theorem error_eq_none_iff {tree : Tree} {report : Report}
    (returned : Scan.scanTree tree = .ok report) :
    report.error = none ↔ tree.hasError = false := by
  cases hverdict : tree.hasError with
  | true =>
      obtain ⟨text, htext⟩ := isSome_firstError_iff.2 hverdict
      rw [scanTree_of_firstError htext] at returned
      cases returned
      simp
  | false =>
      rw [Scan.scanTree, Scan.firstError_eq_none hverdict] at returned
      obtain ⟨observations, -, hreport⟩ := bind_eq_ok_iff.1 returned
      cases hreport
      simp [Report.ofObservations]

/--
A tree is refused by the verdict at its root alone.  Its scan is then a report
with the description as its error, with no findings and constant space.  The
description is that of the first faulty node in the recursive order, or else
names no place, which happens exactly if no node is faulty.
-/
theorem refused_tree_described (tree : Tree) :
    ((∃ text, tree.firstError = some text) ↔ tree.hasError = true) ∧
      (∀ report, Scan.scanTree tree = .ok report →
        (report.error = none ↔ tree.hasError = false)) ∧
      ∀ text, tree.firstError = some text →
        Scan.scanTree tree = .ok {
          findings := []
          space := .ofLabel "1"
          error := some ("JavaScript parsing error: Syntax error: " ++ text) } ∧
        (text = "Invalid syntax" ↔ ∀ node ∈ tree.root.preorder,
          ¬ Tree.IsFaulty node) ∧
        ((∃ node ∈ tree.root.preorder, Tree.IsFaulty node) →
          ∃ node, IsFirst Tree.IsFaulty tree.root.preorder node ∧
              Tree.Describes node text) := by
  refine ⟨isSome_firstError_iff, fun _ => error_eq_none_iff, fun text htext => ?_⟩
  have hrefused := isSome_firstError_iff.1 ⟨text, htext⟩
  refine ⟨scanTree_of_firstError htext, ?_, fun hfaulty => ?_⟩
  · rw [← Tree.firstError_eq_invalid_iff hrefused, htext, Option.some.injEq]
  · obtain ⟨node, hfirst⟩ := exists_isFirst hfaulty
    obtain ⟨described, hdescribed, hnode⟩ :=
      Tree.firstError_of_isFirst hrefused hfirst
    cases htext.symm.trans hdescribed
    exact ⟨node, hfirst, hnode⟩

def brokenScript : Node where
  kind := "program"
  children := [
    { kind := "expression_statement"
      children := [
        { kind := "ERROR"
          text := "grow(alpha, beta, gamma\n  delta"
          position := ⟨0, 4⟩
          children :=
            [{ kind := ")", named := false, position := ⟨1, 7⟩, missing :=
              true }] },
        { kind := ";", named := false, position := ⟨1, 7⟩, missing := true }] }]

theorem refused_tree_described_brokenScript :
    (⟨brokenScript, true⟩ : Tree).firstError =
        some "Unexpected 'grow(alpha, beta, ga' at line 1, column 5" ∧
      ∃ report, Scan.scanTree ⟨brokenScript, true⟩ = .ok report ∧
        report.findings = [] ∧
        report.error = some ("JavaScript parsing error: Syntax error: " ++
          "Unexpected 'grow(alpha, beta, ga' at line 1, column 5") := by
  have described : (⟨brokenScript, true⟩ : Tree).firstError =
      some "Unexpected 'grow(alpha, beta, ga' at line 1, column 5" := by
        decide +kernel
  obtain ⟨-, -, hrefused⟩ := refused_tree_described ⟨brokenScript, true⟩
  exact ⟨described, _, (hrefused _ described).1, rfl, rfl⟩

end SnippetGrowth
