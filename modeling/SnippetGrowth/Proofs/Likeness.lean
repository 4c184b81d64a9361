import Mathlib.Data.List.Forall2
import Mathlib.Data.Option.Basic
import SnippetGrowth.Proofs.ScriptFindings

/-!
# Trees that look alike to a scan

A scan of a syntax tree reads kinds and operators, the update of a loop, the
operands of a division in an argument, and the texts of names and numerals.  A
relation between nodes that keeps all of these is a likeness: trees with
related roots have the same report or the same failure.

Nodes that leave no trace of their own may differ in any way and in number, so
a likeness relates only the nodes that are read, in the order of visiting.
-/

namespace SnippetGrowth

/-! ## Related choices and lists -/

section

variable {α β γ δ : Type} {r : α → β → Prop} {found : Option α} {other : Option β}

theorem rel_cases (h : Option.Rel r found other) : (found = none ∧ other = none) ∨
    ∃ first second, found = some first ∧ other = some second ∧
      r first second := by
  cases h with
  | none => exact .inl ⟨rfl, rfl⟩
  | some hrel => exact .inr ⟨_, _, rfl, rfl, hrel⟩

theorem rel_mono {s : α → β → Prop} (h : Option.Rel r found other)
    (step : ∀ first second, r first second → s first second) :
    Option.Rel s found other := by
  cases h with
  | none => exact .none
  | some hrel => exact .some (step _ _ hrel)

theorem rel_bind {s : γ → δ → Prop} {f : α → Option γ} {g : β → Option δ}
    (h : Option.Rel r found other)
    (step : ∀ first second, r first second → Option.Rel s (f first) (g second)) :
    Option.Rel s (found.bind f) (other.bind g) := by
  cases h with
  | none => exact .none
  | some hrel => exact step _ _ hrel

theorem rel_map {s : γ → δ → Prop} {f : α → γ} {g : β → δ}
    (h : Option.Rel r found other)
    (step : ∀ first second, r first second → s (f first) (g second)) :
    Option.Rel s (found.map f) (other.map g) := by
  cases h with
  | none => exact .none
  | some hrel => exact .some (step _ _ hrel)

theorem map_eq_of_rel {f : α → γ} {g : β → γ} (h : Option.Rel r found other)
    (step : ∀ first second, r first second → f first = g second) :
    found.map f = other.map g := by
  cases h with
  | none => rfl
  | some hrel => exact congrArg some (step _ _ hrel)

theorem any_eq_of_forall₂ {items : List α} {others : List β}
    (h : List.Forall₂ r items others) {p : α → Bool} {q : β → Bool}
    (step : ∀ item other, r item other → p item = q other) :
    items.any p = others.any q := by
  induction h with
  | nil => rfl
  | cons first _ ih => rw [List.any_cons, List.any_cons, step _ _ first, ih]

theorem forall₂_filter {items : List α} {others : List β}
    (h : List.Forall₂ r items others) {p : α → Bool} {q : β → Bool}
    (step : ∀ item other, r item other → p item = q other) :
    List.Forall₂ r (items.filter p) (others.filter q) :=
  List.rel_filter (fun _ _ hrel => by simp only [step _ _ hrel]) h

end

section

variable {α : Type} {r : α → α → Prop}

theorem rel_refl (hrefl : ∀ item, r item item) (found : Option α) :
    Option.Rel r found found := by
  cases found with
  | none => exact .none
  | some item => exact .some (hrefl item)

theorem rel_find?_exchanged (hrefl : ∀ item, r item item) {p : α → Bool}
    {item other : α} (hrel : r item other) (hp : p item = p other)
    (before after : List α) :
    Option.Rel r ((before ++ item :: after).find? p)
      ((before ++ other :: after).find? p) := by
  induction before with
  | nil =>
      rw [List.nil_append, List.nil_append, List.find?_cons,
        List.find?_cons, ← hp]
      cases p item with
      | true => exact .some hrel
      | false => exact rel_refl hrefl _
  | cons first before ih =>
      rw [List.cons_append, List.cons_append, List.find?_cons, List.find?_cons]
      cases p first with
      | true => exact .some (hrefl first)
      | false => exact ih

end

namespace Scan

/-! ## What is read -/

def readKinds : List String :=
  ["for_statement", "while_statement", "function_declaration",
    "generator_function_declaration", "call_expression", "binary_expression"]

/-- Whether the visit of a node can leave a trace in the report. -/
def isRead (node : Node) : Bool := readKinds.contains node.kind

def part? (node : Node) (field : String) : Option Node :=
  (node.child? field).map Node.unwrapped

def dividend? (call : Node) : Option Node :=
  (call.child? "arguments").bind fun arguments =>
    arguments.operands.head?.map Node.unwrapped

theorem mem_preorder_of_part? {node part : Node} {field : String}
    (h : part? node field = some part) : part ∈ node.preorder := by
  obtain ⟨child, hchild, rfl⟩ := Option.map_eq_some_iff.1 h
  exact Node.mem_preorder_of_mem_children (Node.child?_mem_children hchild)
    (Node.unwrapped_mem_preorder child)

theorem mem_preorder_of_dividend? {call dividend : Node}
    (h : dividend? call = some dividend) :
    dividend ∈ call.preorder := by
  obtain ⟨arguments, harguments, h⟩ := Option.bind_eq_some_iff.1 h
  obtain ⟨first, hfirst, rfl⟩ := Option.map_eq_some_iff.1 h
  have hchild := Node.mem_children_of_mem_operands (List.mem_of_head? hfirst)
  exact Node.mem_preorder_of_mem_children (Node.child?_mem_children harguments)
    (Node.mem_preorder_of_mem_children hchild (Node.unwrapped_mem_preorder first))

theorem divisorNode?_eq (call : Node) :
    divisorNode? call = (dividend? call).bind fun dividend =>
      if isBinary dividend && dividend.operator? = some "/" then
        (part? dividend "right").filter (·.kind = "number")
      else none := by
  unfold divisorNode? dividend? part?
  cases call.child? "arguments" with
  | none => rfl
  | some arguments =>
      cases harguments : arguments.operands.head? with
      | none => simp [harguments]
      | some first =>
          simp only [Option.bind_eq_bind, Option.bind_some, harguments,
            Option.map_some]
          split
          · cases first.unwrapped.child? "right" with
            | none => rfl
            | some right =>
                by_cases h : right.unwrapped.kind = "number" <;>
                  simp [Option.filter, h]
          · rfl

theorem ofNode_of_not_isRead {node : Node} (h : isRead node = false) :
    ofNode node = .ok [] := by
  simp [isRead, readKinds] at h
  simp [ofNode, isDeclaration, h]

theorem isRead_of_isCallOf {name : String} {node : Node}
    (h : isCallOf name node = true) :
    isRead node = true := by
  simp only [isCallOf, Bool.and_eq_true, decide_eq_true_eq] at h
  simp [isRead, readKinds, h.1]

theorem isRead_of_isBinary {node : Node} (h : isBinary node = true) :
    isRead node = true := by
  simp [isRead, readKinds, ((isBinary_iff node).1 h).1]

def readNodes (node : Node) : List Node := node.preorder.filter isRead

theorem readNodes_eq (node : Node) :
    readNodes node = (if isRead node then [node] else []) ++
      node.children.flatMap readNodes := by
  rw [readNodes, Node.preorder_eq, Node.preorderAll_eq_flatMap, List.filter_cons,
    List.filter_flatMap]
  split <;> rfl

theorem selfCalls_eq_filter_readNodes (name : String) (declaration : Node) :
    selfCalls name declaration =
      (readNodes declaration).filter (isCallOf name) := by
  rw [selfCalls, Node.walk_eq, readNodes, List.filter_filter]
  refine List.filter_congr fun node _ => ?_
  cases h : isCallOf name node with
  | true => simp [isRead_of_isCallOf h]
  | false => simp

theorem any_isBinary_eq_readNodes (declaration : Node) :
    declaration.walk.any isBinary = (readNodes declaration).any isBinary := by
  rw [Node.walk_eq, readNodes, List.any_filter]
  congr 1
  funext node
  cases h : isBinary node with
  | true => simp [isRead_of_isBinary h]
  | false => simp

theorem scanTree_eq_readNodes {tree : Tree} (clean : tree.hasError = false) :
    scanTree tree =
      (((readNodes tree.root).mapM ofNode).map List.flatten).map
        Report.ofObservations := by
  rw [readNodes, flatten_mapM_filter fun _ => ofNode_of_not_isRead, scanTree,
    firstError_eq_none clean, Node.walk_eq]
  cases tree.root.preorder.mapM ofNode <;> rfl

/-! ## Likenesses -/

structure IsLikeness (alike : Node → Node → Prop) : Prop where
  kind : ∀ {a b : Node}, alike a b → a.kind = b.kind
  operator : ∀ {a b : Node}, alike a b → a.operator? = b.operator?
  part : ∀ {a b : Node}, alike a b →
    ∀ field, Option.Rel alike (part? a field) (part? b field)
  dividend : ∀ {a b : Node}, alike a b →
    Option.Rel alike (dividend? a) (dividend? b)
  numeral : ∀ {a b : Node}, alike a b → a.kind = "number" → a.text = b.text
  /-- Related declarations have names that the same calls use. -/
  name : ∀ {a b : Node}, alike a b → isDeclaration a = true →
    Option.Rel (fun name other => ∀ {call otherCall : Node},
      alike call otherCall →
      isCallOf name.text call =
        isCallOf other.text otherCall) (a.child? "name") (b.child? "name")
  visited : ∀ {a b : Node}, alike a b →
    List.Forall₂ alike (readNodes a) (readNodes b)

namespace IsLikeness

variable {alike : Node → Node → Prop} {a b : Node}

theorem isBinary_eq (h : IsLikeness alike) (hab : alike a b) :
    isBinary a = isBinary b := by
  rw [isBinary, isBinary, h.kind hab, h.operator hab]

private theorem divisor_eq (h : IsLikeness alike) (hab : alike a b) :
    divisor a = divisor b := by
  have hnode : (divisorNode? a).map (·.text) = (divisorNode? b).map (·.text) := by
    rw [divisorNode?_eq, divisorNode?_eq]
    rcases rel_cases (h.dividend hab) with
      ⟨ha, hb⟩ | ⟨dividend, other, ha, hb, hdividend⟩
    · rw [ha, hb]
    · rw [ha, hb, Option.bind_some, Option.bind_some, h.isBinary_eq hdividend,
        h.operator hdividend]
      split
      · rcases rel_cases (h.part hdividend "right") with
          ⟨ha, hb⟩ | ⟨right, other, ha, hb, hright⟩
        · rw [ha, hb]
        · rw [ha, hb]
          by_cases hnumber : right.kind = "number"
          · simp [Option.filter, ← h.kind hright, hnumber,
              h.numeral hright hnumber]
          · simp [Option.filter, ← h.kind hright, hnumber]
      · rfl
  unfold divisor
  cases ha : divisorNode? a <;> cases hb : divisorNode? b <;> simp_all

theorem declaredRecurrence?_eq (h : IsLikeness alike) (hab : alike a b)
    (declares : isDeclaration a = true) :
    declaredRecurrence? a = declaredRecurrence? b := by
  unfold declaredRecurrence?
  rcases rel_cases (h.name hab declares) with
    ⟨ha, hb⟩ | ⟨name, other, ha, hb, hname⟩
  · rw [ha, hb]
  · have hcalls :
        List.Forall₂ alike (selfCalls name.text a)
          (selfCalls other.text b) := by
      rw [selfCalls_eq_filter_readNodes, selfCalls_eq_filter_readNodes]
      exact forall₂_filter (h.visited hab) fun _ _ => hname
    have hbinary : a.walk.any isBinary = b.walk.any isBinary := by
      rw [any_isBinary_eq_readNodes, any_isBinary_eq_readNodes]
      exact any_eq_of_forall₂ (h.visited hab) fun _ _ => h.isBinary_eq
    have hempty : (selfCalls name.text a).isEmpty =
        (selfCalls other.text b).isEmpty := by
      rw [Bool.eq_iff_iff, List.isEmpty_iff_length_eq_zero,
        List.isEmpty_iff_length_eq_zero, hcalls.length_eq]
    have hdivisors : (selfCalls name.text a).mapM divisor =
        (selfCalls other.text b).mapM divisor :=
      mapM_eq_of_forall₂ hcalls fun _ _ => h.divisor_eq
    simp only [ha, hb, hdivisors, hbinary, hempty, hcalls.length_eq]

private theorem ofFor_eq (h : IsLikeness alike) (hab : alike a b) :
    ofFor a = ofFor b := by
  unfold ofFor
  rcases rel_cases (h.part hab "increment") with
    ⟨ha, hb⟩ | ⟨update, other, ha, hb, hupdate⟩
  · rw [part?] at ha hb
    rw [ha, hb]
  · rw [part?] at ha hb
    simp only [ha, hb, h.kind hupdate, h.operator hupdate]

private theorem ofNode_eq (h : IsLikeness alike) (hab : alike a b) :
    ofNode a = ofNode b := by
  have hdeclaration : isDeclaration a = isDeclaration b := by
    rw [isDeclaration, isDeclaration, h.kind hab]
  rw [ofNode, ofNode, h.kind hab, h.ofFor_eq hab, ← hdeclaration]
  cases declares : isDeclaration a with
  | true =>
      rw [ofDeclaration, ofDeclaration, h.declaredRecurrence?_eq hab declares]
  | false => rfl

/-- Clean trees with related roots have the same report or the same failure. -/
theorem scanTree_eq (h : IsLikeness alike) {tree other : Tree}
    (root : alike tree.root other.root) (clean : tree.hasError = false)
    (otherClean : other.hasError = false) :
    scanTree tree = scanTree other := by
  have hnodes : (readNodes tree.root).mapM ofNode =
      (readNodes other.root).mapM ofNode :=
    mapM_eq_of_forall₂ (h.visited root) fun _ _ => h.ofNode_eq
  rw [scanTree_eq_readNodes clean, scanTree_eq_readNodes otherClean, hnodes]

end IsLikeness

end Scan

end SnippetGrowth
