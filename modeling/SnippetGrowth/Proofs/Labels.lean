import SnippetGrowth.Analysis
import SnippetGrowth.Proofs.Notations
import SnippetGrowth.Proofs.Observations
import SnippetGrowth.Proofs.ScriptFindings

/-!
# The labels of findings

A finding of a scan never has a constant label, nor one that a snippet could
write itself.  Its label is a fixed one or a power of `n`, and the exponent of
such a power has no minus sign: where a recurrence has a negative exponent, or
none at all, its extra work decides.

All these labels hold the letter `n`, so every finding ranks linear or above,
and an analysis without an error is constant only if it has no findings.
-/

namespace SnippetGrowth

/-! ## Labels of growth -/

def fixedLabels : List String := ["n!", "n³", "n²", "n log n", "n", "log n"]

/-- Whether a text is the exponent of a power that is shown as such. -/
def IsShownExponent (exponent : String) : Prop :=
  exponent = "inf" ∨ exponent = "nan" ∨
    IsFixedDecimal 4 exponent.toList ∧
    exponent.toList.head? ∉ [some '2', some '3']

def IsGrowthLabel (label : String) : Prop :=
  label ∈ fixedLabels ∨ ∃ exponent, label = "n^" ++ exponent ∧
    IsShownExponent exponent

theorem n_mem_of_isGrowthLabel {label : String} (h : IsGrowthLabel label) :
    'n' ∈ label.toList := by
  rcases h with hfixed | ⟨exponent, rfl, -⟩
  · have hall : ∀ label ∈ fixedLabels, 'n' ∈ label.toList := by decide
    exact hall label hfixed
  · simp [String.toList_append]

theorem not_isGrowthLabel_one : ¬ IsGrowthLabel "1" := by
  intro h
  exact absurd (n_mem_of_isGrowthLabel h) (by decide)

/-! ## Solutions of recurrences -/

private theorem isGrowthLabel_powerLabel {exponent : Double}
    (h : exponent.isNegative = false) :
    IsGrowthLabel (powerLabel (exponent.fixedText 4)) := by
  have htext := fixedText_of_isNegative_eq_false h 4
  unfold powerLabel
  split
  · exact .inl (by decide)
  · next htwo =>
      split
      · exact .inl (by decide)
      · next hthree =>
          refine .inr ⟨_, rfl, ?_⟩
          rcases htext with hinf | hnan | hdecimal
          · exact .inl hinf
          · exact .inr (.inl hnan)
          · exact .inr (.inr ⟨hdecimal, by simp [htwo, hthree]⟩)

private theorem exists_isGrowthLabel_powerBound {exponent : Double}
    (h : exponent.isNegative = false) :
    ∃ label, powerBound exponent = .ofLabel label ∧ IsGrowthLabel label :=
  ⟨_, powerBound_eq exponent, isGrowthLabel_powerLabel h⟩

private theorem exists_isGrowthLabel_growthOf (exponent : Double)
    (work : ExtraWork) :
    ∃ label, growthOf exponent (some work) = .ofLabel label ∧
      IsGrowthLabel label := by
  cases work with
  | constant =>
      simp only [growthOf]
      split
      · next hpositive =>
          exact exists_isGrowthLabel_powerBound
            (isNegative_eq_false_of_isPositive hpositive)
      · exact ⟨"log n", by decide, .inl (by decide)⟩
  | linear =>
      simp only [growthOf]
      split
      · exact ⟨"n", by decide, .inl (by decide)⟩
      · next hbelow =>
          have hone : exponent.lt .one = false := by simpa using hbelow
          exact exists_isGrowthLabel_powerBound
            (isNegative_eq_false_of_not_lt_one hone)

/-! ## Findings -/

def Finding.IsGrowing (f : Finding) : Prop :=
  ∃ label, f.result = .ofLabel label ∧ IsGrowthLabel label

theorem Finding.IsOfLoop.isGrowing {f : Finding} (h : f.IsOfLoop) :
    f.IsGrowing := by
  obtain ⟨expression, hexpression, hresult⟩ := h.expression
  have hkept : ∀ expression ∈ loopExpressions,
      Bound.ofExpression expression = .ofLabel expression ∧
      expression ∈ fixedLabels := by decide
  obtain ⟨hlabel, hfixed⟩ := hkept expression hexpression
  exact ⟨expression, hresult.trans hlabel, .inl hfixed⟩

theorem Finding.IsOfRecursion.isGrowing {f : Finding} {reduction : String}
    (h : f.IsOfRecursion reduction) : f.IsGrowing := by
  obtain ⟨r, hresult⟩ := h.solved
  obtain ⟨label, hlabel, hgrowth⟩ :=
    exists_isGrowthLabel_growthOf (criticalExponent r.branching r.reduction)
      r.extraWork
  exact ⟨label, hresult.trans hlabel, hgrowth⟩

theorem Observation.Arises.isGrowing {o : Observation} (h : o.Arises) :
    o.finding.IsGrowing := by
  cases h with
  | loop h => exact h.isGrowing
  | recursion h => exact h.isGrowing

private theorem isGrowing_permutations : Scan.permutations.finding.IsGrowing :=
  ⟨"n!", by decide, .inl (by decide)⟩

theorem Report.IsScanned.isGrowing {report : Report} (h : report.IsScanned) :
    ∀ finding ∈ report.findings, finding.IsGrowing := by
  obtain ⟨imported, observations, rfl, himported, harises⟩ := h
  intro finding hfinding
  obtain ⟨o, ho, rfl⟩ := List.mem_map.1 hfinding
  rcases List.mem_append.1 ho with hhead | hrest
  · rcases himported with rfl | rfl
    · simp at hhead
    · rw [List.mem_singleton.1 hhead]
      exact isGrowing_permutations
  · exact (harises o hrest).isGrowing

/-! ## Ranks -/

theorem Finding.IsGrowing.rank_le_linear {f : Finding} (h : f.IsGrowing) :
    f.result.rank ≤ GrowthClass.linear.rank := by
  obtain ⟨label, hresult, hlabel⟩ := h
  have hmem : 'n' ∈ (Bound.ofLabel label).upperBound.toList := by
    simp [Bound.ofLabel, String.toList_append, n_mem_of_isGrowthLabel hlabel]
  have hmarker : (GrowthClass.linear, "n") ∈ GrowthClass.markers := by decide
  rw [hresult]
  exact GrowthClass.rank_ofText_le hmarker (Text.occursIn_singleton_iff.2 hmem)

private theorem Finding.IsGrowing.result_ne_constant {f : Finding}
    (h : f.IsGrowing) :
    f.result ≠ .constant := by
  obtain ⟨label, hresult, hlabel⟩ := h
  intro hconstant
  rw [hresult] at hconstant
  rw [Bound.ofLabel_injective hconstant] at hlabel
  exact not_isGrowthLabel_one hlabel

/-! ## Reports and analyses -/

theorem Report.isGrowing_of_scan {profile : Profile} {parse : Parser}
    {code : String} {report : Report}
    (returned : profile.scan parse code = .ok report) :
    ∀ finding ∈ report.findings, finding.IsGrowing := by
  rcases Profile.isScanned_scan returned with hscanned | ⟨description, rfl⟩
  · exact hscanned.isGrowing
  · simp [Report.ofError]

private theorem Report.isGrowing_of_scanTree {tree : Tree} {report : Report}
    (returned : Scan.scanTree tree = .ok report) :
    ∀ finding ∈ report.findings, finding.IsGrowing := by
  rcases Scan.isScanned_scanTree returned with hscanned | ⟨description, rfl⟩
  · exact hscanned.isGrowing
  · simp [Report.ofError]

private theorem combine_eq_constant_iff {findings : List Finding}
    (growing : ∀ finding ∈ findings, finding.IsGrowing) :
    Bound.combine (findings.map (·.result)) = .constant ↔ findings = [] := by
  cases findings with
  | nil => simp [Bound.combine]
  | cons first rest =>
      refine iff_of_false ?_ (by simp)
      intro hconstant
      have hmem : Bound.combine ((first :: rest).map (·.result)) ∈
          (first :: rest).map (·.result) := by
        rw [List.map_cons]
        exact Bound.foldl_dominant_mem _ _
      rw [hconstant] at hmem
      obtain ⟨finding, hfinding, hresult⟩ := List.mem_map.1 hmem
      exact (growing finding hfinding).result_ne_constant hresult

private theorem isGrowing_of_analyze {parse : Parser} {code : String}
    {result : Analysis} (returned : analyze parse code = .ok result) :
    ∀ finding ∈ result.findings, finding.IsGrowing := by
  rcases blank_or_long_or_scannable code with
    hblank | ⟨hvisible, hlong⟩ | hscannable
  · rw [analyze_of_blank hblank] at returned
    cases returned
    simp [Analysis.ofError]
  · rw [analyze_of_long hvisible hlong] at returned
    cases returned
    simp [Analysis.ofError]
  · rw [analyze_of_scannable hscannable] at returned
    obtain ⟨report, hreport, rfl⟩ := map_eq_ok_iff.1 returned
    have hgrowing := Report.isGrowing_of_scan hreport
    unfold Analysis.ofReport
    split
    · simp [Analysis.ofError]
    · exact hgrowing

/--
Every finding of a scan has one of the fixed labels or a power of `n` whose
exponent is infinite, no number, or an unsigned decimal with four places that
starts with neither `2` nor `3`.  It therefore ranks linear or above, and an
analysis without an error has constant time exactly if it found nothing.
-/
theorem scans_find_growth :
    (∀ (profile : Profile) (parse : Parser) (code : String) (report : Report),
      profile.scan parse code = .ok report →
      ∀ finding ∈ report.findings,
        finding.IsGrowing ∧ finding.result.rank ≤ GrowthClass.linear.rank) ∧
    (∀ (tree : Tree) (report : Report), Scan.scanTree tree = .ok report →
      ∀ finding ∈ report.findings,
        finding.IsGrowing ∧ finding.result.rank ≤ GrowthClass.linear.rank) ∧
    ∀ (parse : Parser) (code : String) (result : Analysis),
      analyze parse code = .ok result → result.error = none →
      (result.time = .ofLabel "1" ↔ result.findings = []) := by
  refine ⟨?_, ?_, ?_⟩
  · intro profile parse code report returned finding hfinding
    have hgrowing := Report.isGrowing_of_scan returned finding hfinding
    exact ⟨hgrowing, hgrowing.rank_le_linear⟩
  · intro tree report returned finding hfinding
    have hgrowing := Report.isGrowing_of_scanTree returned finding hfinding
    exact ⟨hgrowing, hgrowing.rank_le_linear⟩
  · intro parse code result returned clean
    rw [(isConsistent_of_returned returned).combined clean]
    exact combine_eq_constant_iff (isGrowing_of_analyze returned)

def splittingSnippet : String := "def f(n):\n    return f(n/2) + f(n/2)"

def splittingReport : Report where
  findings :=
    [⟨"Recursive Function", "Function f with 2 recursive calls, n/2 reduction",
      .ofLabel "n^1.0000"⟩]
  space := .ofLabel "log_2 n"

theorem scans_find_growth_splittingSnippet :
    (Profile.python.scan (Parser.knowing []) splittingSnippet =
      .ok splittingReport ∧
      ∀ finding ∈ splittingReport.findings,
        finding.IsGrowing ∧ finding.result.rank ≤ GrowthClass.linear.rank) ∧
    (Scan.scanTree ⟨Scan.halvingScript, false⟩ = .ok Scan.halvingReport ∧
      ∀ finding ∈ Scan.halvingReport.findings,
        finding.IsGrowing ∧ finding.result.rank ≤ GrowthClass.linear.rank) ∧
    ∃ result, analyze (Parser.knowing []) splittingSnippet = .ok result ∧
      result.error = none ∧
      (result.time = .ofLabel "1" ↔ result.findings = []) := by
  have hscan : Profile.python.scan (Parser.knowing []) splittingSnippet =
      .ok splittingReport := by decide +kernel
  have htree : Scan.scanTree ⟨Scan.halvingScript, false⟩ =
      .ok Scan.halvingReport := by
    decide +kernel
  have hanalyze : analyze (Parser.knowing []) splittingSnippet =
      .ok (.ofReport splittingReport) := by decide +kernel
  exact ⟨⟨hscan, scans_find_growth.1 _ _ _ _ hscan⟩,
    ⟨htree, scans_find_growth.2.1 _ _ htree⟩, _, hanalyze, rfl,
    scans_find_growth.2.2 _ _ _ hanalyze rfl⟩

end SnippetGrowth
