import SnippetGrowth.Proofs.Outcome
import SnippetGrowth.Proofs.Traversal
import SnippetGrowth.Scan.Constructs

/-!
# Findings of scripts by structural recursion

A scan of a syntax tree visits all nodes with an explicit stack, and visits
the subtree of each function declaration once more.  Its findings are those of
a plain recursion: what a node shows by itself comes first, then what its
children show.  What a node shows depends on its own subtree alone.
-/

namespace SnippetGrowth.Scan

open Node

/-! ## What one node shows -/

def forFinding (loop : Node) : Finding :=
  match loop.child? "increment" with
  | none => ⟨"For Loop", "Standard for loop", .ofLabel "n"⟩
  | some increment =>
      let update := increment.unwrapped
      if update.kind = "update_expression" ∧ update.operator? = some "++" then
        ⟨"For Loop", "Linear loop: i++", .ofLabel "n"⟩
      else if update.kind = "augmented_assignment_expression" ∧
          update.operator? = some "*=" then
        ⟨"For Loop", "Logarithmic loop: i *= constant", .ofLabel "log n"⟩
      else if update.kind = "augmented_assignment_expression" ∧
          update.operator? = some "/=" then
        ⟨"For Loop", "Logarithmic loop: i /= constant", .ofLabel "log n"⟩
      else ⟨"For Loop", "Standard for loop", .ofLabel "n"⟩

def whileFinding : Finding :=
  ⟨"While Loop", "While loop with potentially n iterations", .ofLabel "n"⟩

def callsIn (declaration : Node) (name : String) : List Node :=
  declaration.preorder.filter fun node =>
    node.kind = "call_expression" &&
      (node.child? "function").any fun callee => callee.kind = "identifier" &&
        callee.text = name

/-- The value of the literal that the first argument of a call is divided by. -/
def divisionLiteral? (call : Node) : Option Number :=
  match divisor call with
  | .ok value => value
  | .error _ => none

/-- Whether a subtree holds a binary expression whose operator is not a logical one. -/
def HoldsArithmetic (declaration : Node) : Prop :=
  ∃ node ∈ declaration.preorder, node.kind = "binary_expression" ∧
    node.operator? ∉ [some "&&", some "||", some "??"]

instance (declaration : Node) : Decidable (HoldsArithmetic declaration) :=
  inferInstanceAs (Decidable (∃ node ∈ declaration.preorder, _))

/-- The recurrence of a declaration with some self-calls. -/
def inferredRecurrence (declaration : Node) (calls : List Node) : Recurrence where
  branching := .whole calls.length
  reduction := ((calls.filterMap divisionLiteral?).getLast?).getD (.whole 1)
  extraWork := if HoldsArithmetic declaration then .linear else .constant

def spelled : Number → String
  | .whole n => toString n
  | .real x => x.text

def recursionFinding (r : Recurrence) : Finding :=
  ⟨"Recursive Function",
    "Recursive function with " ++ spelled r.branching ++ " calls, n/" ++
      spelled r.reduction ++
      " reduction, " ++ r.extraWork.text ++ " extra work",
    r.solution⟩

def declarationFindings (declaration : Node) : List Finding :=
  match declaration.child? "name" with
  | none => []
  | some name =>
      let calls := callsIn declaration name.text
      if 1 ≤ calls.length then
        [recursionFinding (inferredRecurrence declaration calls)] else []

/-- What a node shows by itself. -/
def ownFindings (node : Node) : List Finding :=
  if node.kind = "for_statement" then [forFinding node]
  else if node.kind = "while_statement" then [whileFinding]
  else if node.kind ∈
      ["function_declaration", "generator_function_declaration"] then
    declarationFindings node
  else []

def subtreeFindings : Node → List Finding := gather ownFindings

/-! ## The visit of one node -/

theorem finding_ofFor (loop : Node) : (ofFor loop).finding = forFinding loop := by
  have hlinear : Bound.ofExpression "n" = .ofLabel "n" := by decide
  have hlog : Bound.ofExpression "log n" = .ofLabel "log n" := by decide
  unfold forFinding
  cases hchild : loop.child? "increment" with
  | none => simp [ofFor, ofFor.standard, hchild, hlinear, Finding.forLoop]
  | some increment =>
      simp only [ofFor, hchild, Option.map_some]
      split
      · next hkind hoperator => simp [hkind, hoperator, hlinear, Finding.forLoop]
      · next operator hkind hoperator =>
          by_cases htimes : operator = "*="
          · subst htimes
            simp [hkind, hoperator, hlog, scalingOperators, Finding.forLoop]
          · by_cases hdivided : operator = "/="
            · subst hdivided
              simp [hkind, hoperator, hlog, scalingOperators, Finding.forLoop]
            · simp [hkind, hoperator, htimes, hdivided, hlinear, scalingOperators,
                ofFor.standard, Finding.forLoop]
      · next hupdate haugmented =>
          have hstandard : ofFor.standard = ⟨"For Loop", "Standard for loop",
              .ofLabel "n"⟩ := by
            simp [ofFor.standard, hlinear, Finding.forLoop]
          rw [hstandard, if_neg, if_neg, if_neg]
          · rintro ⟨hkind, hoperator⟩
            exact haugmented _ hkind hoperator
          · rintro ⟨hkind, hoperator⟩
            exact haugmented _ hkind hoperator
          · rintro ⟨hkind, hoperator⟩
            exact hupdate hkind hoperator

theorem finding_whileStatement :
    whileStatement.finding = whileFinding := by decide

theorem selfCalls_eq (declaration : Node) (name : String) :
    selfCalls name declaration = callsIn declaration name := by
  rw [selfCalls, walk_eq]
  rfl

theorem isBinary_iff (node : Node) : isBinary node = true ↔
    node.kind = "binary_expression" ∧
    node.operator? ∉ [some "&&", some "||", some "??"] := by
  cases h : node.operator? <;> simp [isBinary, h, logicalOperators]

private theorem any_isBinary_iff (declaration : Node) :
    declaration.walk.any isBinary = true ↔ HoldsArithmetic declaration := by
  simp only [walk_eq, List.any_eq_true, isBinary_iff, HoldsArithmetic]

theorem eq_spelled_of_text {number : Number} {text : String}
    (h : number.text = .ok text) :
    text = spelled number := by
  cases number with
  | real x =>
      cases h
      rfl
  | whole n =>
      simp only [Number.text, wholeText] at h
      split at h
      · cases h
        rfl
      · contradiction

private theorem values_of_mapM_divisor {calls : List Node}
    {values : List (Option Number)} (returned : calls.mapM divisor = .ok values) :
    values.filterMap id = calls.filterMap divisionLiteral? := by
  have hvalues : values.map id = calls.map divisionLiteral? :=
    map_of_mapM_eq_ok returned fun call _ value hvalue =>
      by simp [divisionLiteral?, hvalue]
  rw [List.map_id] at hvalues
  rw [hvalues, List.filterMap_map, Function.id_comp]

theorem declaredRecurrence?_eq {declaration : Node}
    {recurrence : Option Recurrence}
    (returned : declaredRecurrence? declaration = .ok recurrence) :
    recurrence = (declaration.child? "name").bind fun name =>
      let calls := callsIn declaration name.text
      if 1 ≤ calls.length then some (inferredRecurrence declaration calls)
          else none := by
  unfold declaredRecurrence? at returned
  cases hname : declaration.child? "name" with
  | none =>
      rw [hname] at returned
      cases returned
      rfl
  | some name =>
      rw [hname] at returned
      obtain ⟨values, hvalues, hresult⟩ := bind_eq_ok_iff.1 returned
      rw [selfCalls_eq] at hvalues hresult
      by_cases hcalls : callsIn declaration name.text = []
      · simp only [hcalls, List.isEmpty_nil, if_true] at hresult
        cases hresult
        simp [hcalls]
      · have hempty : (callsIn declaration name.text).isEmpty = false := by
          simpa using hcalls
        have hlength : 1 ≤ (callsIn declaration name.text).length :=
          List.length_pos_iff.2 hcalls
        simp only [hempty, Bool.false_eq_true, if_false] at hresult
        cases hresult
        simp only [Option.bind_some, if_pos hlength, inferredRecurrence,
          values_of_mapM_divisor hvalues]
        congr 2
        exact if_congr (any_isBinary_iff declaration) rfl rfl

private theorem findings_ofDeclaration {declaration : Node}
    {observations : List Observation}
    (returned : ofDeclaration declaration = .ok observations) :
    observations.map (·.finding) = declarationFindings declaration := by
  obtain ⟨recurrence, hrecurrence, hresult⟩ := bind_eq_ok_iff.1 returned
  have hinferred := declaredRecurrence?_eq hrecurrence
  have hfindings : declarationFindings declaration =
      recurrence.toList.map recursionFinding := by
    rw [hinferred, declarationFindings]
    cases declaration.child? "name" with
    | none => rfl
    | some name =>
        simp only [Option.bind_some]
        split <;> rfl
  rw [hfindings]
  cases recurrence with
  | none =>
      cases hresult
      rfl
  | some recurrence =>
      obtain ⟨branching, hbranching, hresult⟩ := bind_eq_ok_iff.1 hresult
      obtain ⟨reduction, hreduction, hresult⟩ := bind_eq_ok_iff.1 hresult
      cases hresult
      rw [eq_spelled_of_text hbranching, eq_spelled_of_text hreduction]
      rfl

theorem findings_ofNode {node : Node} {observations : List Observation}
    (returned : ofNode node = .ok observations) :
    observations.map (·.finding) = ownFindings node := by
  unfold ofNode at returned
  unfold ownFindings
  split at returned
  · next hfor =>
      cases returned
      rw [if_pos hfor, List.map_singleton, finding_ofFor]
  · next hfor =>
      rw [if_neg hfor]
      split at returned
      · next hwhile =>
          cases returned
          rw [if_pos hwhile, List.map_singleton, finding_whileStatement]
      · next hwhile =>
          have hdeclaration : isDeclaration node = true ↔
              node.kind ∈ ["function_declaration",
                  "generator_function_declaration"] := by
            simp [isDeclaration]
          rw [if_neg hwhile]
          split at returned
          · next hkind =>
              rw [if_pos (hdeclaration.1 hkind)]
              exact findings_ofDeclaration returned
          · next hkind =>
              cases returned
              rw [if_neg fun h => hkind (hdeclaration.2 h)]
              rfl

/-! ## The visit of a tree -/

private theorem findings_of_mapM {nodes : List Node}
    {observations : List (List Observation)}
    (returned : nodes.mapM ofNode = .ok observations) :
    observations.flatten.map (·.finding) = nodes.flatMap ownFindings := by
  have hviews : observations.map (·.map (·.finding)) = nodes.map ownFindings :=
    map_of_mapM_eq_ok returned fun _ _ _ h => findings_ofNode h
  rw [List.map_flatten, hviews, List.flatMap_def]

theorem firstError_eq_none {tree : Tree} (clean : tree.hasError = false) :
    tree.firstError = none := by
  simp [Tree.firstError, clean]

theorem findings_scanTree {tree : Tree} {report : Report}
    (clean : tree.hasError = false) (returned : scanTree tree = .ok report) :
    report.findings = subtreeFindings tree.root := by
  simp only [scanTree, firstError_eq_none clean, walk_eq] at returned
  obtain ⟨observations, hobservations, hreport⟩ := bind_eq_ok_iff.1 returned
  cases hreport
  rw [subtreeFindings, gather_eq_flatMap_preorder]
  exact findings_of_mapM hobservations

/--
The breakdown of a tree without errors is the structural one.  A program shows
what its statements show, one after the other, and the findings of a subtree
are a block of the breakdown that nothing outside the subtree changes.
-/
theorem scanTree_breakdown_structural (tree : Tree) (report : Report)
    (clean : tree.hasError = false) (returned : scanTree tree = .ok report) :
    report.findings = subtreeFindings tree.root ∧
      (∀ node : Node, subtreeFindings node =
        ownFindings node ++ node.children.flatMap subtreeFindings) ∧
      (tree.root.kind = "program" →
        report.findings = tree.root.children.flatMap subtreeFindings) ∧
      ∀ node ∈ tree.root.preorder, subtreeFindings node <:+: report.findings := by
  have hfindings := findings_scanTree clean returned
  have hunfold : ∀ node : Node, subtreeFindings node =
      ownFindings node ++ node.children.flatMap subtreeFindings :=
        gather_eq ownFindings
  refine ⟨hfindings, hunfold, ?_, ?_⟩
  · intro hprogram
    have hown : ownFindings tree.root = [] := by simp [ownFindings, hprogram]
    rw [hfindings, hunfold, hown, List.nil_append]
  · intro node hnode
    rw [hfindings]
    exact gather_infix_of_mem_preorder ownFindings hnode

def halvingScript : Node where
  kind := "program"
  children := [
    { kind := "for_statement" },
    { kind := "function_declaration"
      children := [
        { kind := "identifier", field := some "name", text := "f" },
        { kind := "while_statement" },
        { kind := "call_expression"
          children := [
            { kind := "identifier", field := some "function", text := "f" },
            { kind := "arguments", field := some "arguments"
              children := [
                { kind := "binary_expression"
                  children := [
                    { kind := "/", named := false, field := some "operator" },
                    { kind := "number", field := some "right", text :=
                      "2" }] }] }] }] }]

def halvingReport : Report where
  findings := [
    ⟨"For Loop", "Standard for loop", .ofLabel "n"⟩,
    ⟨"Recursive Function",
      "Recursive function with 1 calls, n/2 reduction, O(n) extra work",
      .ofLabel "n"⟩,
    ⟨"While Loop", "While loop with potentially n iterations", .ofLabel "n"⟩]
  space := .ofLabel "log_2 n"

theorem scanTree_breakdown_halvingScript :
    scanTree ⟨halvingScript, false⟩ = .ok halvingReport ∧
      halvingReport.findings =
        halvingScript.children.flatMap subtreeFindings := by
  have returned : scanTree ⟨halvingScript, false⟩ = .ok halvingReport := by
    decide +kernel
  exact ⟨returned,
    (scanTree_breakdown_structural ⟨halvingScript, false⟩ halvingReport rfl
      returned).2.2.1 rfl⟩

end SnippetGrowth.Scan
