import SnippetGrowth.Proofs.Limits
import SnippetGrowth.Proofs.RangeTimes

/-!
# Nested lines

A snippet in the manner of Python has one finding of nested loops for each line
that opens a level which is not the first.  The depth of a line is settled by
the lines up to it, so a line that is nested stays nested when lines follow;
and as long as no line closes a level, only the first loop is not nested.
-/

namespace SnippetGrowth

open Text

namespace Scan

/-! ## Places -/

/-- The places of the lines that open a level which is not the first. -/
def nestedPlaces (lines : List (List Char)) : List Nat :=
  (List.range lines.length).filter (IsNestedAt lines ·)

theorem deepLines_eq_length (lines : List (List Char)) :
    deepLines 0 lines = (nestedPlaces lines).length := by
  rw [deepLines_eq_countP, nestedPlaces, ← List.countP_eq_length_filter]
  refine List.countP_congr fun place _ => ?_
  rw [isDeep_zero_iff, decide_eq_true_eq]

/-! ## Lines that follow -/

private theorem depthAt_append {lines : List (List Char)} {place : Nat}
    (h : place < lines.length) (more : List (List Char)) :
    depthAt (lines ++ more) place = depthAt lines place := by
  rw [depthAt, depthAt, List.take_append_of_le_length h,
    List.take_append_of_le_length (Nat.le_of_lt h)]

private theorem isNestedAt_append_iff {lines : List (List Char)} {place : Nat}
    (h : place < lines.length) (more : List (List Char)) :
    IsNestedAt (lines ++ more) place ↔ IsNestedAt lines place := by
  rw [IsNestedAt, IsNestedAt, List.getElem?_append_left h, depthAt_append h]

theorem nestedPlaces_isPrefix (lines more : List (List Char)) :
    nestedPlaces lines <+: nestedPlaces (lines ++ more) := by
  have hfront : (List.range lines.length).filter (IsNestedAt (lines ++ more) ·) =
      nestedPlaces lines :=
    List.filter_congr fun place hplace =>
      decide_eq_decide.2 (isNestedAt_append_iff (List.mem_range.1 hplace) more)
  rw [← hfront, nestedPlaces, List.length_append, List.range_add,
    List.filter_append]
  exact List.prefix_append _ _

/-! ## Lines without closing ones -/

section

variable {lines : List (List Char)}
  (unclosed : ∀ line ∈ lines, startsClosing line = false)

include unclosed

private theorem deepLines_of_open {depth : Int} (hopen : 1 ≤ depth) :
    deepLines depth lines = lines.countP startsLoop := by
  induction lines generalizing depth with
  | nil => rfl
  | cons line rest ih =>
      obtain ⟨hline, hrest⟩ := List.forall_mem_cons.1 unclosed
      have hchange : 1 ≤ depth + levelChange line := by
        rw [levelChange, hline]
        split <;> simp <;> omega
      have hdeep : 2 ≤ depth + 1 := by omega
      rw [deepLines_cons, ih hrest hchange, List.countP_cons]
      simp [hdeep]

private theorem deepLines_zero_of_unclosed :
    deepLines 0 lines = lines.countP startsLoop - 1 := by
  induction lines with
  | nil => rfl
  | cons line rest ih =>
      obtain ⟨hline, hrest⟩ := List.forall_mem_cons.1 unclosed
      rw [deepLines_cons, List.countP_cons, levelChange, hline]
      cases startsLoop line with
      | true => simp [deepLines_of_open hrest]
      | false => simpa using ih hrest

end

/-! ## Findings -/

private theorem countP_nestedLoops_scanRanges {code : List Char} {report : Report}
    (returned : scanRanges code = .ok report) :
    report.findings.countP (·.construct = "Nested For Loops") =
      deepLines 0 (lines code) := by
  obtain ⟨functions, hfunctions, hfindings⟩ := findings_scanRanges returned
  have himported :
      (if usesPermutations code then [permutations.finding] else []).filter
      (·.construct = "Nested For Loops") = [] := by
    cases usesPermutations code <;> decide
  have hloops : ∀ loop ∈ allMatches rangeLoop? code,
      (ofRangeLoop loop).finding.construct ≠ "Nested For Loops" := by
    intro loop _
    rw [(ofRangeLoop_cases loop).1]
    decide
  have hnested : nestedLoop.finding.construct = "Nested For Loops" := rfl
  have hdefinitions : ∀ o ∈ functions,
      o.finding.construct ≠ "Nested For Loops" := by
    intro o ho
    rw [construct_of_mem_functions hfunctions o ho]
    decide
  rw [List.countP_eq_length_filter, hfindings, List.filter_append,
    List.filter_append, List.filter_append, himported,
    filter_construct_eq_nil hloops,
    filter_construct_eq_nil hdefinitions, List.filter_replicate_of_pos (by simpa)]
  simp

end Scan

open Scan

/--
The scan of a snippet in the manner of Python fails only for an overlong number,
and otherwise has one finding of nested loops for each line that opens a level
which is not the first.  If no line closes a level, these are all loops but the
first.  Lines that follow take none of the nested lines away, and so none of
their findings.
-/
theorem nested_findings_counted (parse : Parser) (code : String) :
    FailsExactly (Profile.python.scan parse code)
      (Profile.python.HoldsOverlong parse code) ∧
    (∀ report, Profile.python.scan parse code = .ok report →
      report.findings.countP (·.construct = "Nested For Loops") =
        (nestedPlaces (Text.lines code.toList)).length) ∧
    ((∀ line ∈ Text.lines code.toList, startsClosing line = false) →
      (nestedPlaces (Text.lines code.toList)).length =
        (Text.lines code.toList).countP startsLoop - 1) ∧
    ∀ more, nestedPlaces (Text.lines code.toList) <+:
        nestedPlaces (Text.lines (code ++ "\n" ++ more).toList) ∧
      ∀ report extended, Profile.python.scan parse code = .ok report →
        Profile.python.scan parse (code ++ "\n" ++ more) = .ok extended →
        report.findings.countP (·.construct = "Nested For Loops") ≤
          extended.findings.countP (·.construct = "Nested For Loops") := by
  have hcount : ∀ {code report}, Profile.python.scan parse code = .ok report →
      report.findings.countP (·.construct = "Nested For Loops") =
        (nestedPlaces (Text.lines code.toList)).length := fun returned => by
    rw [countP_nestedLoops_scanRanges returned, deepLines_eq_length]
  refine ⟨Profile.scan_failsExactly .python _ nofun _, fun _ => hcount,
    fun unclosed => ?_, fun more => ?_⟩
  · rw [← deepLines_eq_length, deepLines_zero_of_unclosed unclosed]
  · have hlines : Text.lines (code ++ "\n" ++ more).toList =
        Text.lines code.toList ++ Text.lines more.toList := by
      have htext : (code ++ "\n" ++ more).toList =
          code.toList ++ '\n' :: more.toList := by
        simp [String.toList_append]
      rw [htext, Text.lines, split_append_separator]
    have hkept :=
      nestedPlaces_isPrefix (Text.lines code.toList) (Text.lines more.toList)
    rw [← hlines] at hkept
    refine ⟨hkept, fun report extended before after => ?_⟩
    rw [hcount before, hcount after]
    exact hkept.length_le

def bracedSnippet : String :=
  "\x7d\nfor a in b:\n  for c in d:\n    for e in f:\n  \x7d\nfor g in h:"

def bracedReport : Report where
  findings := [
    ⟨"Nested For Loops", "Nested loops creating quadratic complexity",
      .ofLabel "n²"⟩,
    ⟨"Nested For Loops", "Nested loops creating quadratic complexity",
      .ofLabel "n²"⟩]

def openSnippet : String := "for a in b:\n  for c in d:\n    for e in f:"

theorem nested_findings_counted_bracedSnippet :
    (Profile.python.scan (Parser.knowing []) bracedSnippet = .ok bracedReport ∧
      nestedPlaces (Text.lines bracedSnippet.toList) = [3, 5] ∧
      bracedReport.findings.countP (·.construct = "Nested For Loops") =
        (nestedPlaces (Text.lines bracedSnippet.toList)).length) ∧
    (∀ line ∈ Text.lines openSnippet.toList, startsClosing line = false) ∧
      (nestedPlaces (Text.lines openSnippet.toList)).length = 3 - 1 := by
  have returned : Profile.python.scan (Parser.knowing []) bracedSnippet =
      .ok bracedReport := by decide +kernel
  have unclosed : ∀ line ∈ Text.lines openSnippet.toList,
      startsClosing line = false := by decide
  have hloops : (Text.lines openSnippet.toList).countP startsLoop = 3 := by decide
  obtain ⟨-, hcount, -, -⟩ :=
    nested_findings_counted (Parser.knowing []) bracedSnippet
  obtain ⟨-, -, hfirst, -⟩ :=
    nested_findings_counted (Parser.knowing []) openSnippet
  refine ⟨⟨returned, by decide +kernel, hcount _ returned⟩, unclosed, ?_⟩
  rw [hfirst unclosed, hloops]

end SnippetGrowth
