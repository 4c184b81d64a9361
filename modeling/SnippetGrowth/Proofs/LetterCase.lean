import SnippetGrowth.Proofs.CallSites
import SnippetGrowth.Proofs.Outcome
import SnippetGrowth.Profile

/-!
# The case of letters

Snippets that differ only in the case of basic Latin letters belong to the
same profile, and the scan by counted loops observes the same of them: every
keyword is compared in any case, and so is the name of a function, in whatever
case its header has it.  What is left of the case is in the rationales, which
show the name as it is written.
-/

namespace SnippetGrowth

open Text Scan

def lowerCase : Spelling where
  lineEnd := ['\n']
  letter := Char.toLower
  lineEnd_ne_nil := by simp
  isLineEnd_of_mem := by simp [isLineEnd]
  letter_eq_or := toLower_eq_or_isUpper
  fold_letter := fold_toLower

theorem lowerCase_respell (text : List Char) :
    lowerCase.respell text = text.map Char.toLower := by
  induction text with
  | nil => rfl
  | cons c text ih =>
      rw [Spelling.respell_cons, ih, List.map_cons]
      by_cases hc : c = '\n'
      · subst hc
        rfl
      · rw [Spelling.spell_of_ne _ hc]
        rfl

theorem map_toLower_map_toLower (text : List Char) :
    (text.map Char.toLower).map Char.toLower = text.map Char.toLower := by
  rw [List.map_map]
  exact List.map_congr_left fun c _ => toLower_toLower c

/-! ## Profiles -/

theorem normalized_lowerCase (code : List Char) :
    Profile.normalized (lowerCase.respell code) = Profile.normalized code := by
  rw [Profile.normalized, Spelling.strip_respell, lowerCase_respell,
    map_toLower_map_toLower, Profile.normalized]

/-! ## Observations without case -/

def Finding.lowered (f : Finding) : Finding :=
  { f with rationale := f.rationale.toLower }

def Observation.lowered (o : Observation) : Observation :=
  { o with finding := o.finding.lowered }

def Report.lowered (r : Report) : Report :=
  { r with findings := r.findings.map Finding.lowered }

theorem lowered_ofObservations (observations : List Observation) :
    (Report.ofObservations observations).lowered =
      .ofObservations (observations.map Observation.lowered) := by
  simp only [Report.lowered, Report.ofObservations, List.map_map,
    List.filterMap_map]
  rfl

theorem Report.eq_of_lowered_eq {r r' : Report} (h : r.lowered = r'.lowered) :
    r.findings.map (·.construct) = r'.findings.map (·.construct) ∧
      r.findings.map (·.result) = r'.findings.map (·.result) ∧
      r.findings.map (·.rationale.toLower) =
        r'.findings.map (·.rationale.toLower) ∧
      r.space = r'.space ∧ r.error = r'.error := by
  have hview : ∀ {α : Type} (view : Finding → α),
      r.findings.map (view ∘ Finding.lowered) =
          r'.findings.map (view ∘ Finding.lowered) := by
    intro α view
    have hfindings := congrArg (fun r => r.findings.map view) h
    simpa only [lowered, List.map_map] using hfindings
  refine ⟨hview (·.construct), hview (·.result), hview (·.rationale), ?_, ?_⟩
  · exact congrArg (·.space) h
  · exact congrArg (·.error) h

theorem toList_toLower (text : String) :
    text.toLower.toList = text.toList.map Char.toLower :=
  String.toList_map

private theorem toLower_append (first second : String) :
    (first ++ second).toLower = first.toLower ++ second.toLower := by
  rw [← String.toList_inj, toList_toLower, String.toList_append, List.map_append,
    String.toList_append, toList_toLower, toList_toLower]

private theorem toLower_ofList_map_toLower (text : List Char) :
    (String.ofList (text.map Char.toLower)).toLower =
      (String.ofList text).toLower := by
  rw [← String.toList_inj, toList_toLower, toList_toLower, String.toList_ofList,
    String.toList_ofList, map_toLower_map_toLower]

/-! ## The scan by counted loops -/

private theorem ofFunction_lowerCase (code : List Char) {name : List Char}
    (hname : IsName name) :
    (ofFunction functionStyle (lowerCase.respell code)
      (lowerCase.respell name)).map
        Observation.lowered =
      (ofFunction functionStyle code name).map Observation.lowered := by
  have suits : lowerCase.Suits functionStyle := by
    refine ⟨.inl rfl, ?_, ?_, ?_⟩ <;> decide
  unfold ofFunction
  rw [suits.infer_respell code hname, lowerCase_respell]
  cases functionStyle.infer code name with
  | error failure => rfl
  | ok recurrence =>
      simp only [bind, Except.bind]
      cases recurrence.branching.text with
      | error failure => rfl
      | ok branching =>
          cases recurrence.reduction.text with
          | error failure => rfl
          | ok reduction =>
              simp only [Except.map, Observation.lowered, Finding.lowered,
                toLower_append, toLower_ofList_map_toLower]

private theorem scanCounted_map_lowered (code : List Char) :
    (scanCounted code).map Report.lowered =
      (((allMatches functionHeader? code).mapM
        (ofFunction functionStyle code)).map
        (List.map Observation.lowered)).map fun functions =>
          .ofObservations
            (((allMatches countedLoop? code).map fun _ => countedLoop.lowered) ++
              functions) := by
  unfold scanCounted
  cases (allMatches functionHeader? code).mapM
      (ofFunction functionStyle code) with
  | error failure => rfl
  | ok functions =>
      refine congrArg Except.ok ?_
      rw [lowered_ofObservations, List.map_append, List.map_map]
      rfl

private theorem scanCounted_lowerCase (code : List Char) :
    (scanCounted (lowerCase.respell code)).map Report.lowered =
      (scanCounted code).map Report.lowered := by
  have hloops := lowerCase.respells_countedLoop?.allMatches_eq
    isAnchored_countedLoop? isAnchored_countedLoop? code
  have hheaders := lowerCase.respells_functionHeader?.allMatches_eq
    isAnchored_functionHeader? isAnchored_functionHeader? code
  rw [scanCounted_map_lowered, scanCounted_map_lowered, hloops, List.map_id,
    hheaders, map_mapM, map_mapM, List.mapM_map]
  refine congrArg (Except.map _) (mapM_congr fun name hname => ?_)
  exact ofFunction_lowerCase code (isName_of_mem_functionHeaders hname)

/-- Snippets that differ only in the case of basic Latin letters have the same
profile, and the scan by counted loops fails on both with one failure or reports
the same of both, but for the case of letters in rationales. -/
theorem scan_ignores_case {parse : Parser} {code other : String}
    (h : code.toLower = other.toLower) :
    Profile.detect code = Profile.detect other ∧
      ((∃ failure, Profile.pascal.scan parse code = .error failure ∧
          Profile.pascal.scan parse other = .error failure) ∨
        ∃ report report', Profile.pascal.scan parse code = .ok report ∧
          Profile.pascal.scan parse other = .ok report' ∧
          report.findings.map (·.construct) = report'.findings.map (·.construct) ∧
          report.findings.map (·.result) = report'.findings.map (·.result) ∧
          report.findings.map (·.rationale.toLower) =
            report'.findings.map (·.rationale.toLower) ∧
          report.space = report'.space ∧ report.error = report'.error) := by
  have hcode : lowerCase.respell code.toList =
      lowerCase.respell other.toList := by
    rw [lowerCase_respell, lowerCase_respell, ← toList_toLower,
      ← toList_toLower, h]
  have hnormalized : Profile.normalized code.toList =
      Profile.normalized other.toList := by
    rw [← normalized_lowerCase, hcode, normalized_lowerCase]
  have hscan : (Profile.pascal.scan parse code).map Report.lowered =
      (Profile.pascal.scan parse other).map Report.lowered := by
    rw [Profile.scan, Profile.scan, ← scanCounted_lowerCase, hcode,
      scanCounted_lowerCase]
  refine ⟨by simp only [Profile.detect, hnormalized], ?_⟩
  cases hfirst : Profile.pascal.scan parse code with
  | error failure =>
      rw [hfirst] at hscan
      exact .inl ⟨failure, rfl, map_eq_error_iff.1 hscan.symm⟩
  | ok report =>
      rw [hfirst] at hscan
      obtain ⟨report', hsecond, hlowered⟩ := map_eq_ok_iff.1 hscan.symm
      exact .inr ⟨report, report', rfl, hsecond,
        Report.eq_of_lowered_eq hlowered.symm⟩

def shoutedSnippet : String :=
  "END; FUNCTION Fib(n): INT; FIB(n DIV 2) + fIB(N div 2)"

def whisperedSnippet : String :=
  "end; function fib(n): int; fib(n div 2) + fib(n div 2)"

theorem scan_ignores_case_shoutedSnippet :
    Profile.detect shoutedSnippet = Profile.detect whisperedSnippet ∧
      ∃ report report', Profile.pascal.scan (Parser.knowing []) shoutedSnippet =
        .ok report ∧
        Profile.pascal.scan (Parser.knowing []) whisperedSnippet = .ok report' ∧
        report.findings.length = 1 ∧
        report.findings.map (·.construct) = report'.findings.map (·.construct) ∧
        report.findings.map (·.result) = report'.findings.map (·.result) ∧
        report.space = report'.space := by
  have hcase : shoutedSnippet.toLower = whisperedSnippet.toLower := by
    rw [← String.toList_inj, toList_toLower, toList_toLower]
    decide +kernel
  have returned : Profile.pascal.scan (Parser.knowing []) shoutedSnippet = .ok {
      findings := [
        ⟨"Recursive Function",
          "Function Fib with 2 recursive calls, n/2 reduction",
          .ofLabel "n^1.0000"⟩]
      space := .ofLabel "log_2 n" } := by
    decide +kernel
  obtain ⟨hdetect, houtcome⟩ := scan_ignores_case hcase
  rcases houtcome with
    ⟨failure, hfailed, -⟩ | ⟨report, report', hfirst, hsecond, hsame⟩
  · rw [returned] at hfailed
    exact absurd hfailed (by simp)
  · have hreport := Except.ok.inj (returned.symm.trans hfirst)
    have hlength : report.findings.length = 1 := by
      rw [← hreport]
      rfl
    exact ⟨hdetect, report, report', hfirst, hsecond, hlength, hsame.1,
      hsame.2.1, hsame.2.2.2.1⟩

end SnippetGrowth
