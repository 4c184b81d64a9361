import SnippetGrowth.Analysis
import SnippetGrowth.Proofs.Dominance
import SnippetGrowth.Proofs.Observations

/-!
# The notations of an analysis

Every bound of an analysis shows one label in three notations.  Each scan makes
its bounds from labels, the most dominant of several bounds is one of them, and
an analysis without a scan has constant bounds.  The parts of an analysis agree
with one another: its time is that of its findings, and with an error it has
none.
-/

namespace SnippetGrowth

open Scan

/-! ## Bounds of one label -/

/-- Whether a bound shows one label in each notation. -/
def Bound.IsLabelled (b : Bound) : Prop := ∃ label, b = .ofLabel label

namespace Bound

theorem ofLabel_injective {first second : String}
    (h : ofLabel first = ofLabel second) :
    first = second := by
  rw [← label_ofLabel first, h, label_ofLabel]

theorem isLabelled_iff_existsUnique {b : Bound} :
    b.IsLabelled ↔ ∃! label, b = .ofLabel label := by
  constructor
  · rintro ⟨label, rfl⟩
    exact ⟨label, rfl, fun other h => (ofLabel_injective h).symm⟩
  · rintro ⟨label, h, -⟩
    exact ⟨label, h⟩

theorem isLabelled_constant : constant.IsLabelled := ⟨"1", rfl⟩

theorem isLabelled_ofExpression (expression : String) :
    (ofExpression expression).IsLabelled := by
  unfold ofExpression
  dsimp only
  split
  · exact ⟨expression, rfl⟩
  · split
    · exact ⟨"n²", rfl⟩
    · split
      · exact ⟨"n³", rfl⟩
      · exact ⟨expression, rfl⟩

theorem isLabelled_combine {bounds : List Bound}
    (h : ∀ b ∈ bounds, b.IsLabelled) :
    (combine bounds).IsLabelled := by
  rcases combine_eq_constant_or_mem bounds with heq | hmem
  · rw [heq]
    exact isLabelled_constant
  · exact h _ hmem

end Bound

private theorem isLabelled_growthOf (exponent : Double)
    (work : Option ExtraWork) :
    (growthOf exponent work).IsLabelled := by
  unfold growthOf powerBound
  split
  · split <;> exact Bound.isLabelled_ofExpression _
  · split <;> exact Bound.isLabelled_ofExpression _
  · exact Bound.isLabelled_ofExpression _

/-! ## Observations of the scans -/

structure Observation.IsLabelled (o : Observation) : Prop where
  result : o.finding.result.IsLabelled
  space : ∀ bound ∈ o.space, bound.IsLabelled

private theorem Observation.Arises.isLabelled {o : Observation} (h : o.Arises) :
    o.IsLabelled := by
  cases h with
  | loop h =>
      obtain ⟨expression, -, hresult⟩ := h.expression
      refine ⟨?_, by simp⟩
      rw [hresult]
      exact Bound.isLabelled_ofExpression expression
  | recursion h =>
      obtain ⟨r, hresult⟩ := h.solved
      constructor
      · rw [hresult]
        exact isLabelled_growthOf _ _
      · rintro bound ⟨⟩
        exact Bound.isLabelled_ofExpression _

private theorem isLabelled_permutations : permutations.IsLabelled := by
  refine ⟨Bound.isLabelled_ofExpression "n!", ?_⟩
  rintro bound ⟨⟩
  exact Bound.isLabelled_ofExpression "n!"

/-! ## Reports -/

def Report.IsObserved (r : Report) : Prop :=
  ∃ observations, r = .ofObservations observations ∧ ∀ o ∈ observations,
    o.IsLabelled

private theorem Report.IsScanned.isObserved {r : Report} (h : r.IsScanned) :
    r.IsObserved := by
  obtain ⟨imported, observations, rfl, himported, harises⟩ := h
  refine ⟨_, rfl, fun o ho => ?_⟩
  rcases List.mem_append.1 ho with hfirst | hrest
  · rcases himported with rfl | rfl
    · simp at hfirst
    · rw [List.mem_singleton.1 hfirst]
      exact isLabelled_permutations
  · exact (harises o hrest).isLabelled

theorem Profile.isObserved_scan {profile : Profile} {parse : Parser}
    {code : String} {report : Report}
    (returned : profile.scan parse code = .ok report) :
    report.IsObserved ∨
    ∃ description, report = .ofError (parsingError description) := by
  rcases isScanned_scan returned with hscanned | herror
  · exact .inl hscanned.isObserved
  · exact .inr herror

/-! ## Admission of a snippet -/

structure Scannable (code : String) : Prop where
  visible : ∃ c ∈ code.toList, Text.isBlank c = false
  short : code.toList.count '\n' < 500

theorem analyze_of_blank {parse : Parser} {code : String}
    (blank : ∀ c ∈ code.toList, Text.isBlank c = true) :
    analyze parse code = .ok (.ofError "Empty code input") := by
  have hstrip : (Text.strip code.toList).isEmpty = true := by
    simp [Text.strip_eq_nil_iff.2 blank]
  rw [analyze, if_pos hstrip]
  rfl

theorem strip_isEmpty_eq_false {text : List Char}
    (visible : ∃ c ∈ text, Text.isBlank c = false) :
    (Text.strip text).isEmpty = false := by
  rw [Bool.eq_false_iff]
  intro h
  obtain ⟨c, hmem, hc⟩ := visible
  have hblank := Text.strip_eq_nil_iff.1 (List.isEmpty_iff.1 h) c hmem
  rw [hc] at hblank
  contradiction

theorem lineLimit_lt_iff (code : String) :
    Analysis.lineLimit < (Text.lines code.toList).length ↔
      500 ≤ code.toList.count '\n' := by
  rw [Text.lines, Text.length_split, Analysis.lineLimit]
  omega

theorem analyze_of_long {parse : Parser} {code : String}
    (visible : ∃ c ∈ code.toList, Text.isBlank c = false)
    (long : 500 ≤ code.toList.count '\n') :
    analyze parse code = .ok (.ofError "Code exceeds 500 lines limit") := by
  rw [analyze, if_neg (by simp [strip_isEmpty_eq_false visible]),
    if_pos ((lineLimit_lt_iff code).2 long)]
  have hmessage : Analysis.tooLongMessage = "Code exceeds 500 lines limit" := by
    decide
  rw [hmessage]

theorem analyze_of_scannable {parse : Parser} {code : String}
    (h : Scannable code) :
    analyze parse code =
      ((Profile.detect code).scan parse code).map Analysis.ofReport := by
  have hshort : ¬ Analysis.lineLimit < (Text.lines code.toList).length := by
    rw [lineLimit_lt_iff]
    have := h.short
    omega
  rw [analyze, if_neg (by simp [strip_isEmpty_eq_false h.visible]), if_neg hshort]

theorem blank_or_long_or_scannable (code : String) :
    (∀ c ∈ code.toList, Text.isBlank c = true) ∨
      ((∃ c ∈ code.toList, Text.isBlank c = false) ∧
        500 ≤ code.toList.count '\n') ∨
      Scannable code := by
  by_cases hblank : ∀ c ∈ code.toList, Text.isBlank c = true
  · exact .inl hblank
  · have hvisible : ∃ c ∈ code.toList, Text.isBlank c = false := by
      simpa using hblank
    by_cases hlong : 500 ≤ code.toList.count '\n'
    · exact .inr (.inl ⟨hvisible, hlong⟩)
    · exact .inr (.inr ⟨hvisible, by omega⟩)

/-! ## Analyses -/

def Analysis.bounds (a : Analysis) : List Bound :=
  a.time :: a.space :: a.average :: a.findings.map (·.result)

/-- What holds of the parts of every analysis, whatever its snippet. -/
structure Analysis.IsConsistent (a : Analysis) : Prop where
  average : a.average = a.time
  inputSize : a.inputSize = "n"
  failed : a.error ≠ none → a.findings = [] ∧ a.time = .constant ∧
  a.space = .constant ∧
    a.average = .constant
  combined : a.error = none → a.time = Bound.combine (a.findings.map (·.result))
  bounds : ∀ b ∈ a.bounds, b.IsLabelled

theorem Analysis.isConsistent_ofError (message : String) :
    (ofError message).IsConsistent where
  average := rfl
  inputSize := rfl
  failed := fun _ => ⟨rfl, rfl, rfl, rfl⟩
  combined := fun h => by simp [ofError] at h
  bounds := by
    intro b hb
    have heq : b = .constant := by simpa [Analysis.bounds, ofError] using hb
    rw [heq]
    exact Bound.isLabelled_constant

private theorem Report.isLabelled_of_mem_findings
    {observations : List Observation} (h : ∀ o ∈ observations, o.IsLabelled)
    {finding : Finding}
    (hfinding : finding ∈ (ofObservations observations).findings) :
    finding.result.IsLabelled := by
  obtain ⟨o, ho, rfl⟩ := List.mem_map.1 hfinding
  exact (h o ho).result

private theorem Report.isLabelled_space {observations : List Observation}
    (h : ∀ o ∈ observations, o.IsLabelled) :
    (ofObservations observations).space.IsLabelled := by
  unfold ofObservations
  dsimp only
  cases hlast : (observations.filterMap (·.space)).getLast? with
  | none => exact Bound.isLabelled_constant
  | some bound =>
      obtain ⟨o, ho, hspace⟩ := List.mem_filterMap.1 (List.mem_of_getLast? hlast)
      exact (h o ho).space bound hspace

private theorem Analysis.ofReport_eq_ofError (message : String) :
    ofReport (.ofError message) = ofError message := rfl

private theorem Analysis.isConsistent_ofReport {report : Report}
    (h : report.IsObserved) :
    (ofReport report).IsConsistent ∧ (ofReport report).error = none := by
  obtain ⟨observations, rfl, hobservations⟩ := h
  have hresults :
      ∀ b ∈ (Report.ofObservations observations).findings.map (·.result),
      b.IsLabelled := by
    intro b hb
    obtain ⟨finding, hfinding, rfl⟩ := List.mem_map.1 hb
    exact Report.isLabelled_of_mem_findings hobservations hfinding
  have htime : (Report.ofObservations observations).time.IsLabelled :=
    Bound.isLabelled_combine hresults
  refine ⟨⟨rfl, rfl, fun h => absurd rfl h, fun _ => rfl, ?_⟩, rfl⟩
  intro b hb
  simp only [Analysis.bounds, List.mem_cons] at hb
  rcases hb with rfl | rfl | rfl | hresult
  · exact htime
  · exact Report.isLabelled_space hobservations
  · exact htime
  · exact hresults b hresult

theorem isConsistent_of_scannable {parse : Parser} {code : String}
    {result : Analysis} (h : Scannable code)
    (returned : analyze parse code = .ok result) :
    result.IsConsistent ∧ (result.error = none ∨
      ∃ description, result.error = some (parsingError description)) := by
  rw [analyze_of_scannable h] at returned
  obtain ⟨report, hreport, rfl⟩ := map_eq_ok_iff.1 returned
  rcases Profile.isObserved_scan hreport with hobserved | ⟨description, rfl⟩
  · have hparts := Analysis.isConsistent_ofReport hobserved
    exact ⟨hparts.1, .inl hparts.2⟩
  · rw [Analysis.ofReport_eq_ofError]
    exact ⟨Analysis.isConsistent_ofError _, .inr ⟨description, rfl⟩⟩

private theorem parsingError_ne {description message : String}
    (h : message.toList.head? ≠ some 'J') :
    parsingError description ≠ message := by
  have hhead : parsingPreface.toList.head? = some 'J' := by decide +kernel
  rintro rfl
  apply h
  rw [parsingError, String.toList_append, List.head?_append, hhead,
    Option.some_or]

private theorem error_iff_of_returned {parse : Parser} {code : String}
    {result : Analysis} (returned : analyze parse code = .ok result) :
    (result.error = some "Empty code input" ↔ ∀ c ∈ code.toList,
      Text.isBlank c = true) ∧
      (result.error = some "Code exceeds 500 lines limit" ↔
        (∃ c ∈ code.toList, Text.isBlank c = false) ∧
          500 ≤ code.toList.count '\n') := by
  rcases blank_or_long_or_scannable code with
    hblank | ⟨hvisible, hlong⟩ | hscannable
  · rw [analyze_of_blank hblank] at returned
    cases returned
    refine ⟨iff_of_true rfl hblank, iff_of_false (by simp [Analysis.ofError]) ?_⟩
    rintro ⟨⟨c, hmem, hc⟩, -⟩
    rw [hblank c hmem] at hc
    contradiction
  · rw [analyze_of_long hvisible hlong] at returned
    cases returned
    refine ⟨iff_of_false (by simp [Analysis.ofError]) ?_,
      iff_of_true rfl ⟨hvisible, hlong⟩⟩
    intro hblank
    obtain ⟨c, hmem, hc⟩ := hvisible
    rw [hblank c hmem] at hc
    contradiction
  · have herror := (isConsistent_of_scannable hscannable returned).2
    have hother : ∀ message : String, message.toList.head? ≠ some 'J' →
        result.error ≠ some message := by
      rintro message hhead hmessage
      rcases herror with hnone | ⟨description, hsome⟩
      · rw [hnone] at hmessage
        contradiction
      · rw [hsome, Option.some.injEq] at hmessage
        exact parsingError_ne hhead hmessage
    refine ⟨iff_of_false (hother _ (by decide)) ?_,
      iff_of_false (hother _ (by decide)) ?_⟩
    · intro hblank
      obtain ⟨c, hmem, hc⟩ := hscannable.visible
      rw [hblank c hmem] at hc
      contradiction
    · rintro ⟨-, hlong⟩
      have := hscannable.short
      omega

theorem isConsistent_of_returned {parse : Parser} {code : String}
    {result : Analysis} (returned : analyze parse code = .ok result) :
    result.IsConsistent := by
  rcases blank_or_long_or_scannable code with
    hblank | ⟨hvisible, hlong⟩ | hscannable
  · rw [analyze_of_blank hblank] at returned
    cases returned
    exact Analysis.isConsistent_ofError _
  · rw [analyze_of_long hvisible hlong] at returned
    cases returned
    exact Analysis.isConsistent_ofError _
  · exact (isConsistent_of_scannable hscannable returned).1

/--
The parts of every analysis agree with its snippet and with one another.  The
two messages of snippets that are not scanned are given exactly for blank and
for long ones, an analysis with an error has no findings and constant bounds,
one without an error has the time of its findings, and each of its bounds is
the notation of a single label.
-/
theorem analyze_parts_agree (parse : Parser) (code : String) (result : Analysis)
    (returned : analyze parse code = .ok result) :
    result.average = result.time ∧ result.inputSize = "n" ∧
      (result.error = some "Empty code input" ↔ ∀ c ∈ code.toList,
        Text.isBlank c = true) ∧
      (result.error = some "Code exceeds 500 lines limit" ↔
        (∃ c ∈ code.toList, Text.isBlank c = false) ∧
          500 ≤ code.toList.count '\n') ∧
      (result.error ≠ none → result.findings = [] ∧ result.time = .ofLabel "1" ∧
        result.space = .ofLabel "1" ∧ result.average = .ofLabel "1") ∧
      (result.error = none →
        result.time = Bound.combine (result.findings.map (·.result))) ∧
      ∀ b ∈ result.bounds, ∃! label, b = .ofLabel label := by
  have hparts := isConsistent_of_returned returned
  have hmessages := error_iff_of_returned returned
  exact ⟨hparts.average, hparts.inputSize, hmessages.1, hmessages.2,
    hparts.failed, hparts.combined, fun b hb =>
      Bound.isLabelled_iff_existsUnique.1 (hparts.bounds b hb)⟩

def doublingSnippet : String :=
  "void f() \x7b for (i = 1; i < n; i *= 2); while (x) i++; \x7d"

theorem analyze_parts_agree_doublingSnippet :
    ∃ result, analyze (Parser.knowing []) doublingSnippet = .ok result ∧
      result.error = none ∧
      result.findings.length = 2 ∧ result.average = .ofLabel "log n" := by
  have returned : analyze (Parser.knowing []) doublingSnippet = .ok {
      time := .ofLabel "log n"
      space := .ofLabel "1"
      findings := [
        ⟨"For Loop", "Logarithmic for loop (multiplicative update)",
          .ofLabel "log n"⟩,
        ⟨"While Loop", "C while loop with linear iterations", .ofLabel "n"⟩]
      average := .ofLabel "log n" } := by
    decide +kernel
  exact ⟨_, returned, rfl, rfl,
    (analyze_parts_agree _ doublingSnippet _ returned).1⟩

end SnippetGrowth
