import SnippetGrowth.Proofs.Labels

/-!
# The space of a report

The space of a report and its findings are gathered side by side.  They agree:
the last function that calls itself decides the space, and the factor in its
rationale is the base of the logarithm.  Without such a function the space is
that of imported permutations, and without these it is constant.
-/

namespace SnippetGrowth

/-! ## Rationales -/

/-- The reduction factor that a rationale shows: what stands between the first
slash and the next space. -/
def shownReduction (rationale : String) : String :=
  String.ofList (((rationale.toList.dropWhile (· != '/')).drop 1).takeWhile
    (· != ' '))

theorem shownReduction_eq {opening reduction closing : String}
    (hopening : '/' ∉ opening.toList) (hreduction : ' ' ∉ reduction.toList) :
    shownReduction (opening ++ "n/" ++ reduction ++ " reduction" ++ closing) =
      reduction := by
  have hbefore : ∀ c ∈ opening.toList ++ ['n'], (c != '/') = true := by
    intro c hc
    rw [bne_iff_ne]
    rintro rfl
    simp [hopening] at hc
  have hinside : ∀ c ∈ reduction.toList, (c != ' ') = true := by
    intro c hc
    rw [bne_iff_ne]
    rintro rfl
    exact hreduction hc
  have htext : (opening ++ "n/" ++ reduction ++ " reduction" ++ closing).toList =
      (opening.toList ++ ['n']) ++
        '/' :: (reduction.toList ++
            ' ' :: ("reduction".toList ++ closing.toList)) := by
    simp [String.toList_append]
  rw [shownReduction, htext, List.dropWhile_append_of_pos hbefore,
    List.dropWhile_cons_of_neg (by decide), List.drop_one, List.tail_cons,
    List.takeWhile_append_of_pos hinside, List.takeWhile_cons_of_neg (by decide),
    List.append_nil,
    String.ofList_toList]

namespace Finding

def IsRecursion (f : Finding) : Prop := f.construct = recursiveFunction

instance (f : Finding) : Decidable f.IsRecursion :=
  inferInstanceAs (Decidable (_ = _))

theorem IsOfLoop.not_isRecursion {f : Finding} (h : f.IsOfLoop) :
    ¬ f.IsRecursion := by
  intro hrecursion
  have hmem := h.construct
  rw [hrecursion] at hmem
  revert hmem
  decide

theorem IsOfLoop.ne_permutations {f : Finding} (h : f.IsOfLoop) :
    f.construct ≠ permutations := by
  intro hpermutations
  have hmem := h.construct
  rw [hpermutations] at hmem
  revert hmem
  decide

theorem IsOfRecursion.shownReduction_eq {f : Finding} {reduction : String}
    (h : f.IsOfRecursion reduction) : shownReduction f.rationale = reduction := by
  obtain ⟨opening, closing, hopening, hrationale⟩ := h.shown
  rw [hrationale]
  exact SnippetGrowth.shownReduction_eq hopening h.unbroken

/-- The space that a finding entails by itself, as far as its rationale shows it. -/
def shownSpace? (f : Finding) : Option Bound :=
  if f.IsRecursion then some (recursionSpace (shownReduction f.rationale))
    else none

end Finding

/-! ## Space and findings -/

theorem Observation.Arises.space_eq {o : Observation} (h : o.Arises) :
    o.space = o.finding.shownSpace? := by
  cases h with
  | loop h => simp [Finding.shownSpace?, h.not_isRecursion]
  | recursion h =>
      have hrecursion : Finding.IsRecursion _ := h.construct
      simp [Finding.shownSpace?, hrecursion, h.shownReduction_eq]

private theorem filterMap_space_of_arises {observations : List Observation}
    (harises : ∀ o ∈ observations, o.Arises) :
    observations.filterMap (·.space) =
      (observations.map (·.finding)).filterMap Finding.shownSpace? := by
  rw [List.filterMap_map]
  exact List.filterMap_congr fun o ho => (harises o ho).space_eq

private theorem filterMap_shownSpace? (findings : List Finding) :
    findings.filterMap Finding.shownSpace? =
      (findings.filter (·.IsRecursion)).map fun f =>
        recursionSpace (shownReduction f.rationale) := by
  induction findings with
  | nil => rfl
  | cons f findings ih =>
      by_cases h : f.IsRecursion
      · simp [Finding.shownSpace?, h, ih]
      · simp [Finding.shownSpace?, h, ih]

def Report.lastRecursion? (r : Report) : Option Finding :=
  (r.findings.filter (·.IsRecursion)).getLast?

/-- The space of observations after imported permutations, read off their
findings. -/
theorem space_ofObservations {imported observations : List Observation}
    {report : Report}
    (hreport : report = .ofObservations (imported ++ observations))
    (himported : imported = [] ∨ imported = [Scan.permutations])
    (harises : ∀ o ∈ observations, o.Arises) :
    report.space = match report.lastRecursion? with
      | some f => recursionSpace (shownReduction f.rationale)
      | none => if imported = [] then .constant else .ofLabel "n!" := by
  have hspaces : (imported ++ observations).filterMap (·.space) =
      imported.filterMap (·.space) ++ (report.findings.filter (·.IsRecursion)).map
        fun f => recursionSpace (shownReduction f.rationale) := by
    have hfindings : report.findings.filter (·.IsRecursion) =
        (observations.map (·.finding)).filter (·.IsRecursion) := by
      have hnone : (imported.map (·.finding)).filter (·.IsRecursion) = [] := by
        rcases himported with rfl | rfl <;> decide
      have hall :
          report.findings = (imported ++ observations).map (·.finding) := by
        rw [hreport]
        rfl
      rw [hall, List.map_append, List.filter_append, hnone, List.nil_append]
    rw [List.filterMap_append, filterMap_space_of_arises harises,
      filterMap_shownSpace?, hfindings]
  have hspace : report.space =
      ((imported ++ observations).filterMap (·.space)).getLast?.getD
          .constant := by
    rw [hreport]
    rfl
  rw [hspace, hspaces, List.getLast?_append, List.getLast?_map,
    ← Report.lastRecursion?]
  cases report.lastRecursion? with
  | some f => simp only [Option.map_some, Option.some_or, Option.getD_some]
  | none =>
      rcases himported with rfl | rfl
      · rfl
      · decide

private theorem exists_permutations_iff {imported observations : List Observation}
    (himported : imported = [] ∨ imported = [Scan.permutations])
    (harises : ∀ o ∈ observations, o.Arises) :
    (∃ f ∈ (Report.ofObservations (imported ++ observations)).findings,
      f.construct = Finding.permutations) ↔ imported ≠ [] := by
  rcases himported with rfl | rfl
  · refine iff_of_false ?_ (by simp)
    rintro ⟨f, hf, hconstruct⟩
    obtain ⟨o, ho, rfl⟩ := List.mem_map.1 hf
    cases harises o ho with
    | loop h => exact h.ne_permutations hconstruct
    | recursion h =>
        rw [h.construct] at hconstruct
        exact absurd hconstruct (by decide)
  · exact iff_of_true ⟨Scan.permutations.finding, List.mem_cons_self, rfl⟩
      (by simp)

private theorem Report.isScanned_of_clean {report : Report}
    (scanned : (∃ (profile : Profile) (parse : Parser) (code : String),
        profile.scan parse code = .ok report) ∨
      ∃ tree, Scan.scanTree tree = .ok report)
    (clean : report.error = none) : report.IsScanned := by
  have hcase : report.IsScanned ∨ ∃ description,
      report = .ofError ("JavaScript parsing error: Syntax error: " ++
          description) := by
    rcases scanned with ⟨profile, parse, code, returned⟩ | ⟨tree, returned⟩
    · exact Profile.isScanned_scan returned
    · exact Scan.isScanned_scanTree returned
  rcases hcase with hscanned | ⟨description, rfl⟩
  · exact hscanned
  · simp [Report.ofError] at clean

private theorem Report.IsScanned.shown_of_isRecursion {report : Report}
    (h : report.IsScanned) {f : Finding} (hf : f ∈ report.findings)
    (hrecursion : f.IsRecursion) :
    f.IsOfRecursion (shownReduction f.rationale) := by
  obtain ⟨imported, observations, rfl, himported, harises⟩ := h
  obtain ⟨o, ho, rfl⟩ := List.mem_map.1 hf
  rcases List.mem_append.1 ho with hhead | hrest
  · rcases himported with rfl | rfl
    · simp at hhead
    · rw [List.mem_singleton.1 hhead] at hrecursion
      exact absurd hrecursion (by decide)
  · cases harises o hrest with
    | loop h => exact absurd hrecursion h.not_isRecursion
    | recursion h =>
        rw [h.shownReduction_eq]
        exact h

/--
The space of a report without an error is decided by its findings.  If some
function calls itself, the last one does: the factor in its rationale is the
base of the logarithm.  Otherwise permutations make it factorial, and without
them it is constant.
-/
theorem space_decided_by_findings (report : Report)
    (scanned : (∃ (profile : Profile) (parse : Parser) (code : String),
        profile.scan parse code = .ok report) ∨
      ∃ tree, Scan.scanTree tree = .ok report)
    (clean : report.error = none) :
    (∀ finding,
      (report.findings.filter (·.construct = "Recursive Function")).getLast? =
        some finding →
      (∃ opening closing, finding.rationale =
        opening ++ "n/" ++ shownReduction finding.rationale ++ " reduction" ++
          closing) ∧
      classify (.expression
          ("log_" ++ shownReduction finding.rationale ++ " n")) =
        .ok report.space) ∧
    ((∀ finding ∈ report.findings, finding.construct ≠ "Recursive Function") →
      (∃ finding ∈ report.findings, finding.construct = "Permutations") →
      report.space = .ofLabel "n!") ∧
    ((∀ finding ∈ report.findings, finding.construct ≠ "Recursive Function") →
      (∀ finding ∈ report.findings, finding.construct ≠ "Permutations") →
      report.space = .ofLabel "1") := by
  have hscanned := Report.isScanned_of_clean scanned clean
  have hnone :
      (∀ finding ∈ report.findings, finding.construct ≠ "Recursive Function") →
      report.lastRecursion? = none := by
    intro h
    rw [Report.lastRecursion?, List.getLast?_eq_none_iff, List.filter_eq_nil_iff]
    intro finding hfinding hrecursion
    exact h finding hfinding (of_decide_eq_true hrecursion)
  obtain ⟨imported, observations, hreport, himported, harises⟩ := hscanned
  have hspace := space_ofObservations hreport himported harises
  have hpermutations := exists_permutations_iff himported harises
  rw [← hreport] at hpermutations
  refine ⟨?_, ?_, ?_⟩
  · intro finding hlast
    have hmem := List.mem_filter.1 (List.mem_of_getLast? hlast)
    have hrecursion : finding.IsRecursion := of_decide_eq_true hmem.2
    have hshown :=
      (Report.isScanned_of_clean scanned clean).shown_of_isRecursion hmem.1
        hrecursion
    obtain ⟨opening, closing, -, hrationale⟩ := hshown.shown
    refine ⟨⟨opening, closing, hrationale⟩, ?_⟩
    have hlast? : report.lastRecursion? = some finding := hlast
    rw [hlast?] at hspace
    simp only [hspace, classify, recursionSpace]
  · intro hother hsome
    rw [hnone hother] at hspace
    exact hspace.trans (if_neg (hpermutations.1 hsome))
  · intro hother hno
    rw [hnone hother] at hspace
    refine hspace.trans (if_pos ?_)
    by_contra himport
    obtain ⟨finding, hfinding, hconstruct⟩ := hpermutations.2 himport
    exact hno finding hfinding hconstruct

def thirdsSnippet : String :=
  "import itertools\npermutations\ndef f(n): f(n/2)\ndef g(n): g(n/3) + g(n/3)"

theorem space_decided_by_findings_thirdsSnippet :
    ∃ report, Profile.python.scan (Parser.knowing []) thirdsSnippet = .ok report ∧
      report.error = none ∧
      (report.findings.filter (·.construct = "Recursive Function")).length = 2 ∧
      classify (.expression "log_3 n") = .ok report.space := by
  have returned : Profile.python.scan (Parser.knowing []) thirdsSnippet = .ok {
      findings := [
        ⟨"Permutations",
          "Generation of all permutations using itertools.permutations",
          .ofLabel "n!"⟩,
        ⟨"Recursive Function", "Function f with 1 recursive calls, n/2 reduction",
          .ofLabel "log n"⟩,
        ⟨"Recursive Function", "Function g with 2 recursive calls, n/3 reduction",
          .ofLabel "n^0.6309"⟩]
      space := .ofLabel "log_3 n" } := by
    decide +kernel
  refine ⟨_, returned, rfl, by decide, ?_⟩
  exact ((space_decided_by_findings _ (.inl ⟨.python, _, thirdsSnippet, returned⟩)
    rfl).1 _ rfl).2

end SnippetGrowth
