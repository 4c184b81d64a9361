import SnippetGrowth.Proofs.CriticalExponents
import SnippetGrowth.Proofs.Likeness
import SnippetGrowth.Proofs.Space

/-!
# Recursion in scripts

A function declaration that divides the argument of a call of itself holds the
division, so its extra work is linear.  Without any arithmetic its input is
never reduced: a single call of itself then leaves a logarithm, and several
calls have an infinite exponent.  A function that halves its input is thus
never logarithmic.
-/

namespace SnippetGrowth

/-! ## Growth by extra work -/

theorem growthOf_linear_ne_log (exponent : Double) :
    growthOf exponent (some .linear) ≠ .ofLabel "log n" := by
  simp only [growthOf]
  split
  · decide
  · rw [powerBound_eq]
    exact fun h => powerLabel_ne_log _ (Bound.ofLabel_injective h)

theorem growthOf_unreduced {k : Nat} (hk : 1 ≤ k) :
    growthOf (criticalExponent (.whole k) (.whole 1)) (some .constant) =
      if k = 1 then .ofLabel "log n" else .ofLabel "n^inf" := by
  split
  · next hone =>
      rw [hone, Nat.cast_one, criticalExponent_one_one]
      decide
  · next hone =>
      rw [criticalExponent_one (by omega)]
      decide

namespace Scan

open Node

/-! ## Divisions in declarations -/

variable {declaration : Node}

private theorem isBinary_of_divisorNode? {call literal : Node}
    (h : divisorNode? call = some literal) :
    ∃ dividend ∈ call.preorder, isBinary dividend = true := by
  rw [divisorNode?_eq] at h
  obtain ⟨dividend, hdividend, h⟩ := Option.bind_eq_some_iff.1 h
  refine ⟨dividend, mem_preorder_of_dividend? hdividend, ?_⟩
  by_contra hbinary
  simp [hbinary] at h

theorem holdsArithmetic_of_divisorNode? {call literal : Node}
    (hcall : call ∈ declaration.preorder) (h : divisorNode? call = some literal) :
    HoldsArithmetic declaration := by
  obtain ⟨dividend, hdividend, hbinary⟩ := isBinary_of_divisorNode? h
  exact ⟨dividend, mem_preorder_trans hcall hdividend,
    (isBinary_iff dividend).1 hbinary⟩

private theorem divisionLiteral?_of_not_holdsArithmetic
    (plain : ¬ HoldsArithmetic declaration) {call : Node}
    (hcall : call ∈ declaration.preorder) : divisionLiteral? call = none := by
  cases hdivisor : divisorNode? call with
  | none => simp [divisionLiteral?, divisor, hdivisor]
  | some literal =>
      exact absurd (holdsArithmetic_of_divisorNode? hcall hdivisor) plain

theorem mem_preorder_of_mem_callsIn {name : String} {call : Node}
    (h : call ∈ callsIn declaration name) : call ∈ declaration.preorder :=
  (List.mem_filter.1 h).1

theorem inferredRecurrence_of_not_holdsArithmetic
    (plain : ¬ HoldsArithmetic declaration) (name : String) :
    inferredRecurrence declaration (callsIn declaration name) =
      ⟨.whole (callsIn declaration name).length, .whole 1, .constant⟩ := by
  have hnone : (callsIn declaration name).filterMap divisionLiteral? = [] := by
    rw [List.filterMap_eq_nil_iff]
    exact fun call hcall =>
      divisionLiteral?_of_not_holdsArithmetic plain
        (mem_preorder_of_mem_callsIn hcall)
  simp [inferredRecurrence, hnone, plain]

/-! ## The finding of a declaration -/

theorem solution_of_holdsArithmetic (h : HoldsArithmetic declaration)
    (calls : List Node) :
    (inferredRecurrence declaration calls).extraWork = .linear ∧
      (inferredRecurrence declaration calls).solution ≠ .ofLabel "log n" := by
  have hwork : (inferredRecurrence declaration calls).extraWork = .linear := by
    simp [inferredRecurrence, h]
  refine ⟨hwork, ?_⟩
  rw [Recurrence.solution, hwork]
  exact growthOf_linear_ne_log _

theorem solution_of_not_holdsArithmetic (plain : ¬ HoldsArithmetic declaration)
    {name : String} (recursive : 1 ≤ (callsIn declaration name).length) :
    (inferredRecurrence declaration (callsIn declaration name)).solution =
      if (callsIn declaration name).length = 1 then .ofLabel "log n"
        else .ofLabel "n^inf" := by
  rw [inferredRecurrence_of_not_holdsArithmetic plain]
  exact growthOf_unreduced recursive

private theorem exists_observation {name : Node} {observations : List Observation}
    (named : declaration.child? "name" = some name)
    (recursive : 1 ≤ (callsIn declaration name.text).length)
    (analyzed : ofDeclaration declaration = .ok observations) :
    let r := inferredRecurrence declaration (callsIn declaration name.text)
    declaredRecurrence? declaration = .ok (some r) ∧
    ∃ reduction, r.reduction.text = .ok reduction ∧
      observations = [⟨recursionFinding r, some (recursionSpace reduction)⟩] := by
  obtain ⟨recurrence, hrecurrence, hresult⟩ := bind_eq_ok_iff.1 analyzed
  have hinferred := declaredRecurrence?_eq hrecurrence
  rw [named, Option.bind_some] at hinferred
  dsimp only at hinferred
  rw [if_pos recursive] at hinferred
  subst hinferred
  obtain ⟨branching, hbranching, hresult⟩ := bind_eq_ok_iff.1 hresult
  obtain ⟨reduction, hreduction, hresult⟩ := bind_eq_ok_iff.1 hresult
  refine ⟨hrecurrence, reduction, hreduction, ?_⟩
  cases hresult
  rw [eq_spelled_of_text hbranching, recursionFinding,
    ← eq_spelled_of_text hreduction]
  rfl

private theorem ofNode_of_isDeclaration
    (kind : isDeclaration declaration = true) :
    ofNode declaration = ofDeclaration declaration := by
  have hkinds : declaration.kind = "function_declaration" ∨
      declaration.kind = "generator_function_declaration" := by
    simpa [isDeclaration] using kind
  rcases hkinds with hkind | hkind <;> simp [ofNode, hkind, kind]

/-- The report on a tree without errors holds what its declarations show, and
its space is that of the last one that calls itself. -/
theorem scanTree_shows {tree : Tree} {report : Report}
    {observations : List Observation} (clean : tree.hasError = false)
    (found : declaration ∈ tree.root.preorder)
    (kind : isDeclaration declaration = true)
    (analyzed : ofDeclaration declaration = .ok observations)
    (returned : scanTree tree = .ok report) : ∀ o ∈ observations,
      o.finding ∈ report.findings ∧
        (report.lastRecursion? = some o.finding →
          o.space = some report.space) := by
  intro o ho
  have hown : observations.map (·.finding) = ownFindings declaration := by
    refine findings_ofNode ?_
    rw [ofNode_of_isDeclaration kind, analyzed]
  have hmem : o.finding ∈ report.findings := by
    rw [findings_scanTree clean returned, subtreeFindings,
      gather_eq_flatMap_preorder, List.mem_flatMap]
    refine ⟨declaration, found, ?_⟩
    rw [← hown]
    exact List.mem_map_of_mem ho
  refine ⟨hmem, fun hlast => ?_⟩
  rcases isScanned_scanTree returned with hscanned | ⟨description, rfl⟩
  · obtain ⟨imported, all, hreport, himported, harises⟩ := hscanned
    have hrecursion : o.finding.IsRecursion := by
      simpa using (List.mem_filter.1 (List.mem_of_getLast? hlast)).2
    have hspace := space_ofObservations hreport himported harises
    rw [hlast] at hspace
    rw [(arises_ofDeclaration analyzed o ho).space_eq, Finding.shownSpace?,
      if_pos hrecursion, hspace]
  · simp [Report.ofError] at hmem

/--
Each part of a recursion in a script decides the growth in one way.  A call
that divides its first argument by a literal makes the extra work linear; the
growth is logarithmic exactly for one call without any arithmetic around it;
and several calls without arithmetic have an infinite exponent.
-/
theorem declaration_logarithmic_iff (tree : Tree) (declaration name : Node)
    (observations : List Observation) (clean : tree.hasError = false)
    (found : declaration ∈ tree.root.preorder)
    (kind : isDeclaration declaration = true)
    (named : declaration.child? "name" = some name)
    (recursive : 1 ≤ (callsIn declaration name.text).length)
    (analyzed : ofDeclaration declaration = .ok observations) :
    let calls := callsIn declaration name.text
    ∃ r o, declaredRecurrence? declaration = .ok (some r) ∧ observations = [o] ∧
      ((∃ call ∈ calls, (divisorNode? call).isSome) →
        r.extraWork = .linear ∧ o.finding.result ≠ .ofLabel "log n") ∧
      (o.finding.result = .ofLabel "log n" ↔
        calls.length = 1 ∧ ¬ HoldsArithmetic declaration) ∧
      (2 ≤ calls.length → ¬ HoldsArithmetic declaration →
        o.finding.result = .ofLabel "n^inf" ∧
        o.space = some (.ofLabel "log_1 n")) ∧
      ∀ report, scanTree tree = .ok report → o.finding ∈ report.findings ∧
        (report.lastRecursion? = some o.finding →
            o.space = some report.space) := by
  intro calls
  obtain ⟨hrecurrence, reduction, hreduction, rfl⟩ :=
    exists_observation named recursive analyzed
  have hplain := fun plain => solution_of_not_holdsArithmetic plain recursive
  refine ⟨_, _, hrecurrence, rfl, ?_, ?_, ?_, fun report returned =>
    scanTree_shows clean found kind analyzed returned
      _ (List.mem_singleton_self _)⟩
  · rintro ⟨call, hcall, hdivisor⟩
    obtain ⟨literal, hliteral⟩ := Option.isSome_iff_exists.1 hdivisor
    exact solution_of_holdsArithmetic
      (holdsArithmetic_of_divisorNode? (mem_preorder_of_mem_callsIn hcall)
        hliteral) calls
  · constructor
    · intro hlog
      have plain : ¬ HoldsArithmetic declaration := fun h =>
        (solution_of_holdsArithmetic h calls).2 hlog
      refine ⟨?_, plain⟩
      by_contra hseveral
      have hpower := hplain plain
      rw [if_neg hseveral] at hpower
      exact absurd (hpower.symm.trans hlog) (by decide)
    · rintro ⟨hsingle, plain⟩
      exact (hplain plain).trans (if_pos hsingle)
  · intro hseveral plain
    have hone : (inferredRecurrence declaration calls).reduction = .whole 1 := by
      rw [inferredRecurrence_of_not_holdsArithmetic plain]
    have htext : reduction = "1" := by
      rw [hone] at hreduction
      exact eq_spelled_of_text hreduction
    subst htext
    have hspace : recursionSpace "1" = .ofLabel "log_1 n" := by decide
    exact ⟨(hplain plain).trans (if_neg (Nat.ne_of_gt hseveral)),
      congrArg some hspace⟩

def bareCall : Node where
  kind := "call_expression"
  children := [{ kind := "identifier", field := some "function", text := "f" }]

def branchingDeclaration : Node where
  kind := "function_declaration"
  children := [{ kind := "identifier", field := some "name", text := "f" },
    bareCall, bareCall]

def branchingObservation : Observation where
  finding := ⟨"Recursive Function",
    "Recursive function with 2 calls, n/1 reduction, O(1) extra work",
    .ofLabel "n^inf"⟩
  space := some (.ofLabel "log_1 n")

theorem declaration_logarithmic_iff_branchingDeclaration :
    ofDeclaration branchingDeclaration = .ok [branchingObservation] ∧
      (branchingObservation.finding.result = .ofLabel "log n" ↔
        (callsIn branchingDeclaration "f").length = 1 ∧
        ¬ HoldsArithmetic branchingDeclaration) ∧
      branchingObservation.finding.result = .ofLabel "n^inf" ∧
      branchingObservation.space = some (.ofLabel "log_1 n") := by
  have analyzed : ofDeclaration branchingDeclaration =
      .ok [branchingObservation] := by
    decide +kernel
  have found : branchingDeclaration ∈
      ({ kind := "program", children := [branchingDeclaration] } :
          Node).preorder :=
    mem_preorder_of_mem_children (List.mem_singleton_self _) (self_mem_preorder _)
  obtain ⟨r, o, -, hsame, -, hlog, hseveral, -⟩ :=
    declaration_logarithmic_iff ⟨_, false⟩ branchingDeclaration _ _ rfl found
      (by decide) rfl
      (by decide) analyzed
  obtain rfl : branchingObservation = o := List.head_eq_of_cons_eq hsame
  exact ⟨analyzed, hlog, hseveral (by decide) (by decide)⟩

end Scan

end SnippetGrowth
