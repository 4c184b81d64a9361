import SnippetGrowth.Proofs.RangeTimes
import SnippetGrowth.Proofs.SelfCalls

/-!
# The space of imported permutations

Imported permutations make the space of a snippet factorial, but each definition
of a function puts a logarithm in its place, whether the function calls itself or
not.  The space is factorial to the end exactly if no header of a definition
stands in the snippet.  The time keeps the dominant bound and is factorial in
every case.
-/

namespace SnippetGrowth

namespace Scan

open Text

/-! ## Headers of definitions -/

def IsResultType (text : List Char) : Prop :=
  text = [] ∨ ∃ type, type ≠ [] ∧ ':' ∉ type ∧ text = '-' :: '>' :: type

theorem isBlank_eq_false_of_head?_resultType {result : List Char}
    (h : IsResultType result) (rest : List Char) :
    ∃ c more, result ++ ':' :: rest = c :: more ∧ isBlank c = false := by
  rcases h with rfl | ⟨type, -, -, rfl⟩
  · exact ⟨':', rest, rfl, by decide⟩
  · exact ⟨'-', '>' :: (type ++ ':' :: rest), rfl, by decide⟩

private theorem skipResultType_of_arrow {type rest : List Char} (h : ':' ∉ type) :
    skipResultType ('-' :: '>' :: (type ++ ':' :: rest)) =
      if type = [] then '-' :: '>' :: ':' :: rest else ':' :: rest := by
  have htype : ∀ c ∈ type, (c != ':') = true := fun c hc => by
    simpa using ne_of_mem_of_not_mem hc h
  have hspan : (type ++ ':' :: rest).span (· != ':') = (type, ':' :: rest) :=
    span_eq_of_inside htype (by simp)
  have harrow : after? ['-', '>'] ('-' :: '>' :: (type ++ ':' :: rest)) =
      some (type ++ ':' :: rest) := after?_eq_some_iff.2 rfl
  rw [skipResultType, harrow]
  simp only [hspan]
  cases type with
  | nil => rfl
  | cons c type => simp

theorem after?_skipResultType_eq_some_iff {text rest : List Char} :
    after? [':'] (skipResultType text) = some rest ↔
      ∃ result, IsResultType result ∧ text = result ++ ':' :: rest := by
  constructor
  · intro h
    have hcolon := after?_eq_some_iff.1 h
    unfold skipResultType at hcolon
    split at hcolon
    · next type harrow =>
        have htext := after?_eq_some_iff.1 harrow
        rw [List.span_eq_takeWhile_dropWhile] at hcolon
        split at hcolon
        · rw [hcolon] at htext
          simp at htext
        · next before after hne heq =>
            obtain ⟨hbefore, hafter⟩ := Prod.mk.inj heq
            have hsplit : type = before ++ ':' :: rest := by
              rw [← List.takeWhile_append_dropWhile (p := (· != ':')) (l := type),
                hbefore, hafter, hcolon]
              rfl
            refine ⟨'-' :: '>' :: before, .inr ⟨before, hne, ?_, rfl⟩, ?_⟩
            · intro hmem
              rw [← hbefore] at hmem
              exact absurd (List.mem_takeWhile_imp hmem) (by decide)
            · rw [htext, hsplit]
              rfl
    · exact ⟨[], .inl rfl, hcolon⟩
  · rintro ⟨result, hresult, rfl⟩
    rcases hresult with rfl | ⟨type, hne, htype, rfl⟩
    · have hplain : skipResultType (':' :: rest) = ':' :: rest := by
        have harrow : after? ['-', '>'] (':' :: rest) = none := by simp [after?]
        rw [skipResultType, harrow]
      rw [List.nil_append, hplain]
      exact after?_eq_some_iff.2 rfl
    · rw [List.cons_append, List.cons_append, skipResultType_of_arrow htype,
        if_neg hne]
      exact after?_eq_some_iff.2 rfl

/-- The parts of a header `def name(parameters) -> type:`. -/
structure DefinitionReading where
  gap : List Char
  name : List Char
  blanks : List Char
  parameters : List Char
  margin : List Char
  result : List Char
  gap_ne_nil : gap ≠ []
  isBlank_of_mem_gap : ∀ c ∈ gap, isBlank c = true
  isName : IsName name
  isBlank_of_mem_blanks : ∀ c ∈ blanks, isBlank c = true
  parameters_unclosed : ')' ∉ parameters
  isBlank_of_mem_margin : ∀ c ∈ margin, isBlank c = true
  isResultType : IsResultType result

def DefinitionReading.text (r : DefinitionReading) : List Char :=
  "def".toList ++ (r.gap ++ (r.name ++ (r.blanks ++ '(' :: (r.parameters ++ ')' ::
    (r.margin ++ (r.result ++ [':']))))))

theorem DefinitionReading.text_append (r : DefinitionReading) (rest : List Char) :
    r.text ++ rest =
      "def".toList ++ (r.gap ++ (r.name ++ (r.blanks ++ '(' :: (r.parameters ++
      ')' :: (r.margin ++ (r.result ++ ':' :: rest)))))) := by
  simp [text]

private theorem definition?_eq_some_iff {previous : Option Char}
    {text name rest : List Char} :
    definition? previous text = some (name, rest) ↔
      ∃ r : DefinitionReading, r.name = name ∧ text = r.text ++ rest := by
  rw [definition?_eq]
  constructor
  · intro h
    obtain ⟨⟨word, afterName⟩, hname, h⟩ := Option.bind_eq_some_iff.1 h
    obtain ⟨⟨parameters, afterParameters⟩, hparameters, h⟩ :=
      Option.bind_eq_some_iff.1 h
    obtain ⟨afterColon, hcolon, h⟩ := Option.map_eq_some_iff.1 h
    obtain ⟨rfl, rfl⟩ := Prod.mk.inj h
    obtain ⟨front, hfront, hword⟩ := Option.bind_eq_some_iff.1 hname
    obtain ⟨afterKeyword, hkeyword, hgap⟩ := Option.bind_eq_some_iff.1 hfront
    obtain ⟨gap, hne, hblank, rfl⟩ := dropBlanks?_eq_some hgap
    obtain ⟨hwordNe, hwordAll, rfl⟩ := of_run?_eq_some hword
    obtain ⟨blanks, hblanks, hunclosed, rfl⟩ :=
      parenthesized?_eq_some_iff.1 hparameters
    obtain ⟨result, hresult, hrest⟩ := after?_skipResultType_eq_some_iff.1 hcolon
    refine ⟨⟨gap, word, blanks, parameters, afterParameters.takeWhile isBlank,
      result, hne, hblank, ⟨hwordNe, hwordAll⟩, hblanks, hunclosed,
      fun c => List.mem_takeWhile_imp, hresult⟩, rfl, ?_⟩
    rw [DefinitionReading.text_append, ← hrest, dropBlanks,
      List.takeWhile_append_dropWhile]
    exact after?_eq_some_iff.1 hkeyword
  · rintro ⟨r, rfl, rfl⟩
    rw [r.text_append]
    have hname :
        ((after? "def".toList
          ("def".toList ++ (r.gap ++ (r.name ++ (r.blanks ++ '(' ::
            (r.parameters ++ ')' ::
              (r.margin ++ (r.result ++ ':' :: rest)))))))).bind
          dropBlanks?).bind word? =
        some (r.name, r.blanks ++ '(' ::
          (r.parameters ++ ')' :: (r.margin ++ (r.result ++ ':' :: rest)))) := by
      rw [after?_eq_some_iff.2 rfl, Option.bind_some,
        dropBlanks?_append r.isBlank_of_mem_gap (r.isName.head?_append _)
          r.gap_ne_nil,
        Option.bind_some]
      exact run?_eq_of_inside r.isName.ne_nil r.isName.isWord_of_mem
        (head?_blanks_append r.isBlank_of_mem_blanks (by decide) _)
    have hparameters : parenthesized? (r.blanks ++ '(' :: (r.parameters ++ ')' ::
        (r.margin ++ (r.result ++ ':' :: rest)))) =
          some (r.parameters, r.margin ++ (r.result ++ ':' :: rest)) :=
      parenthesized?_eq_some_iff.2
        ⟨r.blanks, r.isBlank_of_mem_blanks, r.parameters_unclosed, rfl⟩
    have hmargin : dropBlanks (r.margin ++ (r.result ++ ':' :: rest)) =
        r.result ++ ':' :: rest := by
      obtain ⟨c, more, hopen, hc⟩ :=
        isBlank_eq_false_of_head?_resultType r.isResultType rest
      rw [hopen]
      exact dropBlanks_append r.isBlank_of_mem_margin (by rintro _ ⟨⟩; exact hc)
    have hcolon : after? [':'] (skipResultType (r.result ++ ':' :: rest)) =
        some rest :=
      after?_skipResultType_eq_some_iff.2 ⟨r.result, r.isResultType, rfl⟩
    rw [hname, Option.bind_some]
    simp only [hparameters, Option.bind_some, hmargin, hcolon, Option.map_some]

def HoldsDefinition (text : List Char) : Prop :=
  ∃ r : DefinitionReading, r.text <:+: text

theorem holdsDefinition_iff {text : List Char} :
    HoldsDefinition text ↔ allMatches definition? text ≠ [] := by
  rw [allMatches_ne_nil_iff isAnchored_definition?]
  constructor
  · rintro ⟨r, before, rest, rfl⟩
    refine ⟨before.length, r.name, (before ++ r.text).length, before,
      r.text ++ rest, rest, List.append_assoc _ _ _, rfl, by simp [r.text_append],
      definition?_eq_some_iff.2 ⟨r, rfl, rfl⟩, ?_⟩
    simp only [List.length_append]
  · rintro ⟨start, name, stop, before, behind, rest, rfl, -, -, hfound, -⟩
    obtain ⟨r, -, rfl⟩ := definition?_eq_some_iff.1 hfound
    exact ⟨r, before, rest, List.append_assoc _ _ _⟩

instance : DecidablePred HoldsDefinition :=
  fun _ => decidable_of_iff _ holdsDefinition_iff.symm

/-! ## The space of a scan -/

theorem recursionSpace_eq (factor : String) :
    recursionSpace factor = .ofLabel ("log_" ++ factor ++ " n") := by
  have hlog : occursIn "log".toList ("log_" ++ factor ++ " n").toList = true :=
    occursIn_iff.2 ⟨[], '_' :: (factor.toList ++ [' ', 'n']), by simp⟩
  rw [recursionSpace, Bound.ofExpression]
  simp only [hlog, if_true]

theorem recursionSpace_ne_factorial (factor : String) :
    recursionSpace factor ≠ .ofLabel "n!" := by
  intro h
  rw [recursionSpace_eq] at h
  have hlabel := congrArg String.toList (Bound.ofLabel_injective h)
  simp at hlabel

private theorem exists_space_of_ofFunction {style : CallStyle}
    {code name : List Char} {o : Observation}
    (returned : ofFunction style code name = .ok o) :
    ∃ recurrence factor, style.infer code name = .ok recurrence ∧
      recurrence.reduction.text = .ok factor ∧
      o.space = some (recursionSpace factor) := by
  obtain ⟨recurrence, hinfer, returned⟩ := bind_eq_ok_iff.1 returned
  obtain ⟨branching, -, returned⟩ := bind_eq_ok_iff.1 returned
  obtain ⟨factor, hfactor, returned⟩ := bind_eq_ok_iff.1 returned
  cases returned
  exact ⟨recurrence, factor, hinfer, hfactor, rfl⟩

theorem space_scanRanges {code : List Char} {report : Report}
    (returned : scanRanges code = .ok report) :
    ∃ functions,
      (allMatches definition? code).mapM (ofFunction definitionStyle code) =
        .ok functions ∧
      report.space = ((functions.filterMap (·.space)).getLast?.or
        (if usesPermutations code then some (.ofLabel "n!")
          else none)).getD .constant := by
  obtain ⟨functions, hfunctions, returned⟩ := bind_eq_ok_iff.1 returned
  cases returned
  have hloops :
      ((allMatches rangeLoop? code).map ofRangeLoop).filterMap (·.space) =
        [] := by
    simp [List.filterMap_eq_nil_iff, ofRangeLoop]
  have hnested :
      (List.replicate (deepLines 0 (lines code)) nestedLoop).filterMap
        (·.space) = [] := by
    simp [nestedLoop]
  have himported :
      ((if usesPermutations code then [permutations] else []).filterMap
      (·.space)).getLast? = if usesPermutations code then some (.ofLabel "n!")
          else none := by
    cases usesPermutations code <;> decide
  refine ⟨functions, hfunctions, ?_⟩
  rw [Report.ofObservations, List.filterMap_append, List.filterMap_append,
    List.filterMap_append, hloops, hnested, List.append_nil, List.append_nil,
    List.getLast?_append, himported]

section

variable {code : List Char} {report : Report}
  (returned : scanRanges code = .ok report)

include returned

private theorem importsPermutations_of_found
    (found : ∃ finding ∈ report.findings, finding.construct = "Permutations") :
    ImportsPermutations code := by
  by_contra plain
  have huses : usesPermutations code = false :=
    Bool.eq_false_iff.2 fun huses => plain (usesPermutations_iff.1 huses)
  obtain ⟨functions, hfunctions, hfindings⟩ := findings_scanRanges returned
  obtain ⟨finding, hfinding, hconstruct⟩ := found
  rw [hfindings, huses] at hfinding
  simp only [Bool.false_eq_true, if_false, List.nil_append,
    List.mem_append] at hfinding
  rcases hfinding with (hloop | hnested) | hfunction
  · obtain ⟨loop, -, rfl⟩ := List.mem_map.1 hloop
    rw [(ofRangeLoop_cases loop).1] at hconstruct
    exact absurd hconstruct (by decide)
  · rw [(List.mem_replicate.1 hnested).2] at hconstruct
    exact absurd hconstruct (by decide)
  · obtain ⟨o, ho, rfl⟩ := List.mem_map.1 hfunction
    rw [construct_of_mem_functions hfunctions o ho] at hconstruct
    exact absurd hconstruct (by decide)

private theorem space_of_last_definition {name : List Char}
    (hname : (allMatches definition? code).getLast? = some name) :
    ∃ recurrence factor, definitionStyle.infer code name = .ok recurrence ∧
      recurrence.reduction.text = .ok factor ∧
      report.space = .ofLabel ("log_" ++ factor ++ " n") := by
  obtain ⟨functions, hfunctions, hspace⟩ := space_scanRanges returned
  obtain ⟨last, hlast, hstep⟩ := exists_getLast?_of_mapM_eq_ok hfunctions hname
  obtain ⟨recurrence, factor, hinfer, hfactor, hlastSpace⟩ :=
    exists_space_of_ofFunction hstep
  obtain ⟨others, rfl⟩ := List.getLast?_eq_some_iff.1 hlast
  refine ⟨recurrence, factor, hinfer, hfactor, ?_⟩
  rw [hspace, List.filterMap_append, List.getLast?_append]
  simp [hlastSpace, recursionSpace_eq]

private theorem space_of_no_definition (imported : ImportsPermutations code)
    (hnone : allMatches definition? code = []) :
    report.space = .ofLabel "n!" := by
  obtain ⟨functions, hfunctions, hspace⟩ := space_scanRanges returned
  rw [hnone] at hfunctions
  cases hfunctions
  rw [hspace, usesPermutations_iff.2 imported]
  rfl

end

end Scan

open Scan

/--
A snippet with imported permutations has factorial space exactly if no header of
a definition stands in it.  Otherwise the space is the logarithm of the last
definition, to the base of its reduction factor, even where that function never
calls itself.  The time is factorial in both cases, and loops do not matter.
-/
theorem permutations_space_iff (parse : Parser) (code : String) (report : Report)
    (returned : Profile.python.scan parse code = .ok report)
    (found : ∃ finding ∈ report.findings, finding.construct = "Permutations") :
    (report.space = .ofLabel "n!" ↔ ¬ HoldsDefinition code.toList) ∧
    (∀ name, (allMatches definition? code.toList).getLast? = some name →
      ∃ recurrence factor,
        definitionStyle.infer code.toList name = .ok recurrence ∧
        recurrence.reduction.text = .ok factor ∧
        report.space = .ofLabel ("log_" ++ factor ++ " n")) ∧
    report.time = .ofLabel "n!" := by
  have imported := importsPermutations_of_found returned found
  refine ⟨?_, fun name hname => space_of_last_definition returned hname,
    time_of_imports returned imported⟩
  rw [holdsDefinition_iff, not_not]
  constructor
  · intro hspace
    by_contra hsome
    obtain ⟨recurrence, factor, -, -, hlog⟩ :=
      space_of_last_definition returned (List.getLast?_eq_some_getLast hsome)
    rw [← recursionSpace_eq] at hlog
    exact recursionSpace_ne_factorial factor (hlog.symm.trans hspace)
  · exact space_of_no_definition returned imported

def quartersSnippet : String :=
  "import itertools\nfor p in range(permutations):\ndef f() -> int: 1\ndef g(n): g(n//4)"

def quartersReport : Report where
  findings := [
    ⟨"Permutations",
      "Generation of all permutations using itertools.permutations",
      .ofLabel "n!"⟩,
    ⟨"For Loop", "Python for loop with range(n)", .ofLabel "n"⟩,
    ⟨"Recursive Function", "Function f with 1 recursive calls, n/1 reduction",
      .ofLabel "log n"⟩,
    ⟨"Recursive Function", "Function g with 1 recursive calls, n/4 reduction",
      .ofLabel "log n"⟩]
  space := .ofLabel "log_4 n"

theorem permutations_space_iff_quarters :
    Profile.python.scan (Parser.knowing []) quartersSnippet = .ok quartersReport ∧
      HoldsDefinition quartersSnippet.toList ∧
      quartersReport.space ≠ .ofLabel "n!" ∧
      quartersReport.time = .ofLabel "n!" := by
  have returned : Profile.python.scan (Parser.knowing []) quartersSnippet =
      .ok quartersReport := by decide +kernel
  have found : ∃ finding ∈ quartersReport.findings,
      finding.construct = "Permutations" := by decide
  have holds : HoldsDefinition quartersSnippet.toList := by decide +kernel
  obtain ⟨hspace, -, htime⟩ :=
    permutations_space_iff _ quartersSnippet quartersReport returned found
  exact ⟨returned, holds, fun h => hspace.1 h holds, htime⟩

def listingSnippet : String :=
  "import itertools\ndef f(n):\n    return list(itertools.permutations(n))"

def listingReport : Report where
  findings := [
    ⟨"Permutations",
      "Generation of all permutations using itertools.permutations",
      .ofLabel "n!"⟩,
    ⟨"Recursive Function", "Function f with 1 recursive calls, n/1 reduction",
      .ofLabel "log n"⟩]
  space := .ofLabel "log_1 n"

theorem listing_space_not_factorial :
    Profile.python.scan (Parser.knowing []) listingSnippet = .ok listingReport ∧
      (∃ finding ∈ listingReport.findings, finding.construct = "Permutations") ∧
      listingReport.space ≠ .ofLabel "n!" := by
  refine ⟨?_, ?_, ?_⟩ <;> decide +kernel

end SnippetGrowth
