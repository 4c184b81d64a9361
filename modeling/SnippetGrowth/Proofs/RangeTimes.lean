import SnippetGrowth.Proofs.BranchOrder
import SnippetGrowth.Proofs.Combination
import SnippetGrowth.Profile

/-!
# The time of a snippet with ranges

The findings of a snippet in the manner of Python come from four passes.
Imported permutations are above all others; then come definitions that solve to
a cube, and then those that solve to a square and lines that are nested.  All
that is left has one rank, so the first finding decides: the first loop, or the
first definition if there is no loop.
-/

namespace SnippetGrowth

namespace Scan

open Text

/-! ## The depth of lines -/

def startsLoop (line : List Char) : Bool := "for".toList.isPrefixOf (strip line)

def startsClosing (line : List Char) : Bool := ['\x7d'].isPrefixOf (strip line)

/-- The depth that a line reaches if it opens a level: the lines up to it that
open one, less the lines before it that close one. -/
def depthAt (lines : List (List Char)) (place : Nat) : Int :=
  (lines.take (place + 1)).countP startsLoop -
    (lines.take place).countP startsClosing

/-- Whether a line opens a level that is not the first, from a given depth on. -/
def isDeep (start : Int) (lines : List (List Char)) (place : Nat) : Bool :=
  lines[place]?.any startsLoop && 2 ≤ start + depthAt lines place

private theorem startsClosing_eq_false {line : List Char}
    (h : startsLoop line = true) :
    startsClosing line = false := by
  rw [startsLoop, List.isPrefixOf_iff_prefix] at h
  rw [startsClosing, Bool.eq_false_iff, Ne, List.isPrefixOf_iff_prefix]
  intro hclosing
  obtain ⟨rest, hrest⟩ := h
  rw [← hrest] at hclosing
  revert hclosing
  simp

def levelChange (line : List Char) : Int :=
  if startsLoop line then 1 else if startsClosing line then -1 else 0

private theorem isDeep_cons_zero (start : Int) (line : List Char)
    (rest : List (List Char)) :
    isDeep start (line :: rest) 0 = (startsLoop line && 2 ≤ start + 1) := by
  cases h : startsLoop line <;> simp [isDeep, depthAt, h]

private theorem isDeep_cons_succ (start : Int) (line : List Char)
    (rest : List (List Char)) (place : Nat) :
    isDeep start (line :: rest) (place + 1) =
      isDeep (start + levelChange line) rest place := by
  have hdepth : start + depthAt (line :: rest) (place + 1) =
      start + levelChange line + depthAt rest place := by
    simp only [depthAt, levelChange, List.take_succ_cons, List.countP_cons]
    cases hloop : startsLoop line with
    | true =>
        simp only [startsClosing_eq_false hloop, if_true, Bool.false_eq_true,
          if_false]
        omega
    | false =>
        cases startsClosing line with
        | true =>
            simp
            omega
        | false => simp
  simp [isDeep, hdepth]

theorem deepLines_cons (start : Int) (line : List Char)
    (rest : List (List Char)) :
    deepLines start (line :: rest) =
      deepLines (start + levelChange line) rest +
        if startsLoop line && 2 ≤ start + 1 then 1 else 0 := by
  have hloop : (after? "for".toList (strip line)).isSome = startsLoop line :=
    (isPrefixOf_eq _ _).symm
  have hclosing : (strip line).head? = some '\x7d' ↔
      startsClosing line = true := by
    rw [startsClosing, List.isPrefixOf_iff_prefix,
      List.singleton_prefix_iff_head?_eq_some]
  rw [deepLines, hloop]
  simp only [hclosing, levelChange]
  cases startsLoop line with
  | true =>
      simp only [if_true, Bool.true_and, decide_eq_true_eq]
      omega
  | false => cases startsClosing line <;> simp [Int.sub_eq_add_neg]

theorem deepLines_eq_countP (start : Int) (lines : List (List Char)) :
    deepLines start lines =
      (List.range lines.length).countP (isDeep start lines) := by
  induction lines generalizing start with
  | nil => rfl
  | cons line rest ih =>
      have hrest : deepLines (start + levelChange line) rest =
          (List.range rest.length).countP
              (isDeep start (line :: rest) ∘ Nat.succ) := by
        rw [ih]
        exact List.countP_congr fun place _ => by
          rw [Function.comp_apply, Nat.succ_eq_add_one, isDeep_cons_succ]
      rw [List.length_cons, List.range_succ_eq_map, List.countP_cons,
        List.countP_map, ← hrest, isDeep_cons_zero, deepLines_cons]

def IsNestedAt (lines : List (List Char)) (place : Nat) : Prop :=
  ∃ line, lines[place]? = some line ∧ startsLoop line = true ∧
    2 ≤ depthAt lines place

theorem isDeep_zero_iff {lines : List (List Char)} {place : Nat} :
    isDeep 0 lines place = true ↔ IsNestedAt lines place := by
  rw [isDeep, Bool.and_eq_true, Option.any_eq_true, decide_eq_true_eq,
    Int.zero_add, IsNestedAt, ← exists_and_right]
  simp only [and_assoc]

instance (lines : List (List Char)) : DecidablePred (IsNestedAt lines) :=
  fun _ => decidable_of_iff _ isDeep_zero_iff

def ReachesDepth (code : List Char) : Prop :=
  ∃ place line, (lines code)[place]? = some line ∧ startsLoop line = true ∧
    2 ≤ depthAt (lines code) place

theorem deepLines_pos_iff (code : List Char) :
    0 < deepLines 0 (lines code) ↔ ReachesDepth code := by
  rw [deepLines_eq_countP, List.countP_pos_iff]
  constructor
  · rintro ⟨place, -, hdeep⟩
    exact ⟨place, isDeep_zero_iff.1 hdeep⟩
  · rintro ⟨place, line, hline, hdeep⟩
    obtain ⟨hplace, -⟩ := List.getElem?_eq_some_iff.1 hline
    exact ⟨place, List.mem_range.2 hplace, isDeep_zero_iff.2 ⟨line, hline, hdeep⟩⟩

instance (code : List Char) : Decidable (ReachesDepth code) :=
  decidable_of_iff _ (deepLines_pos_iff code)

/-! ## Findings -/

def ImportsPermutations (code : List Char) : Prop :=
  "permutations".toList <:+: code ∧
    ("import itertools".toList <:+: code ∨
      "from itertools import".toList <:+: code)

theorem usesPermutations_iff {code : List Char} :
    usesPermutations code = true ↔ ImportsPermutations code := by
  rw [usesPermutations, Bool.and_eq_true, Bool.or_eq_true, occursIn_iff,
    occursIn_iff, occursIn_iff, and_comm, ImportsPermutations]

instance (code : List Char) : Decidable (ImportsPermutations code) :=
  decidable_of_iff _ usesPermutations_iff

/-- Whether the recurrence of some definition solves to a bound. -/
def SolvesTo (code : List Char) (bound : Bound) : Prop :=
  ∃ name ∈ allMatches definition? code, ∃ r,
    definitionStyle.infer code name = .ok r ∧ r.solution = bound

private theorem exists_infer_iff {code name : List Char} {bound : Bound} :
    (∃ r, definitionStyle.infer code name = .ok r ∧ r.solution = bound) ↔
      ((definitionStyle.infer code name).toOption.any (·.solution = bound)) =
        true := by
  cases definitionStyle.infer code name <;> simp [Except.toOption]

instance (code : List Char) (bound : Bound) : Decidable (SolvesTo code bound) :=
  decidable_of_iff (∃ name ∈ allMatches definition? code,
      ((definitionStyle.infer code name).toOption.any (·.solution = bound)) =
        true)
    (exists_congr fun _ => and_congr_right fun _ => exists_infer_iff.symm)

theorem ofRangeLoop_cases (loop : List Char) :
    (ofRangeLoop loop).finding.construct = "For Loop" ∧
      (ofRangeLoop loop).finding.result =
        .ofLabel (if hasMultiplicativeStep loop then "log n" else "n") := by
  unfold ofRangeLoop
  split
  · exact ⟨rfl, by decide⟩
  · exact ⟨rfl, by decide⟩

theorem rank_ofRangeLoop (loop : List Char) :
    (ofRangeLoop loop).finding.result.rank = GrowthClass.linear.rank := by
  rw [(ofRangeLoop_cases loop).2]
  split <;> decide

theorem findings_scanRanges {code : List Char} {report : Report}
    (returned : scanRanges code = .ok report) :
    ∃ functions,
      (allMatches definition? code).mapM (ofFunction definitionStyle code) =
        .ok functions ∧
      report.findings = (if usesPermutations code then [permutations.finding]
        else []) ++
        (allMatches rangeLoop? code).map
          (fun loop => (ofRangeLoop loop).finding) ++
        List.replicate (deepLines 0 (lines code)) nestedLoop.finding ++
        functions.map (·.finding) := by
  obtain ⟨functions, hfunctions, returned⟩ := bind_eq_ok_iff.1 returned
  cases returned
  refine ⟨functions, hfunctions, ?_⟩
  cases usesPermutations code <;> simp [Report.ofObservations, Function.comp_def]

theorem filter_forLoop_scanRanges {code : List Char} {report : Report}
    (returned : scanRanges code = .ok report) :
    report.findings.filter (·.construct = "For Loop") =
      (allMatches rangeLoop? code).map fun loop =>
        (ofRangeLoop loop).finding := by
  obtain ⟨functions, hfunctions, hfindings⟩ := findings_scanRanges returned
  have himported :
      (if usesPermutations code then [permutations.finding] else []).filter
      (·.construct = "For Loop") = [] := by
    cases usesPermutations code <;> decide
  have hnested : nestedLoop.finding.construct ≠ "For Loop" := by decide
  have hloops : ∀ loop ∈ allMatches rangeLoop? code,
      (ofRangeLoop loop).finding.construct = "For Loop" := fun loop _ =>
        (ofRangeLoop_cases loop).1
  have hdefinitions : ∀ o ∈ functions, o.finding.construct ≠ "For Loop" := by
    intro o ho
    rw [construct_of_mem_functions hfunctions o ho]
    decide
  rw [hfindings, List.filter_append, List.filter_append, List.filter_append,
    himported, filter_construct_eq_self hloops,
    filter_construct_eq_nil hdefinitions, List.nil_append,
    List.append_nil, List.filter_replicate_of_neg (by simpa), List.append_nil]

/-! ## Ranks -/

private theorem solution_cases (r : Recurrence) :
    r.solution = .ofLabel "n³" ∨ r.solution = .ofLabel "n²" ∨
      r.solution.rank = GrowthClass.linear.rank := by
  rcases rank_growthOf_cases (criticalExponent r.branching r.reduction)
      r.extraWork with
    hrank | ⟨-, hpower, hlabel⟩
  · exact .inr (.inr hrank)
  · have hsolution : r.solution = .ofLabel (powerLabel
        ((criticalExponent r.branching r.reduction).fixedText 4)) :=
      hpower.trans (powerBound_eq _)
    rw [List.mem_cons, List.mem_singleton] at hlabel
    rcases hlabel with hsquare | hcube
    · exact .inr (.inl (by rw [hsolution, hsquare]))
    · exact .inl (by rw [hsolution, hcube])

section

variable {code : List Char} {report : Report}
  (returned : scanRanges code = .ok report)
  (plain : ¬ ImportsPermutations code)

include returned plain

/-- Without permutations a finding is a cube or a square for a reason, or of
linear rank. -/
theorem result_cases {finding : Finding} (h : finding ∈ report.findings) :
    (finding.result = .ofLabel "n³" ∧ SolvesTo code (.ofLabel "n³")) ∨
      (finding.result = .ofLabel "n²" ∧
        (SolvesTo code (.ofLabel "n²") ∨ ReachesDepth code)) ∨
      finding.result.rank = GrowthClass.linear.rank := by
  obtain ⟨functions, hfunctions, hfindings⟩ := findings_scanRanges returned
  have huses : usesPermutations code = false :=
    Bool.eq_false_iff.2 fun huses => plain (usesPermutations_iff.1 huses)
  rw [hfindings, huses] at h
  simp only [Bool.false_eq_true, if_false, List.nil_append, List.mem_append] at h
  rcases h with (hloop | hnested) | hfunction
  · obtain ⟨loop, -, rfl⟩ := List.mem_map.1 hloop
    exact .inr (.inr (rank_ofRangeLoop loop))
  · obtain ⟨hdeep, rfl⟩ := List.mem_replicate.1 hnested
    refine .inr (.inl ⟨by decide, .inr ?_⟩)
    exact (deepLines_pos_iff code).1 (Nat.pos_of_ne_zero hdeep)
  · obtain ⟨o, ho, rfl⟩ := List.mem_map.1 hfunction
    obtain ⟨name, hname, hstep⟩ := exists_item_of_mapM_eq_ok hfunctions ho
    obtain ⟨-, r, hinfer, hresult⟩ := exists_infer_of_ofFunction hstep
    rw [hresult]
    rcases solution_cases r with hcube | hsquare | hlinear
    · exact .inl ⟨hcube, name, hname, r, hinfer, hcube⟩
    · exact .inr (.inl ⟨hsquare, .inl ⟨name, hname, r, hinfer, hsquare⟩⟩)
    · exact .inr (.inr hlinear)

end

theorem exists_finding_of_solvesTo {code : List Char} {report : Report}
    {bound : Bound} (returned : scanRanges code = .ok report)
    (h : SolvesTo code bound) :
    ∃ finding ∈ report.findings, finding.result = bound := by
  obtain ⟨functions, hfunctions, hfindings⟩ := findings_scanRanges returned
  obtain ⟨name, hname, r, hinfer, rfl⟩ := h
  obtain ⟨o, ho, hstep⟩ := exists_result_of_mapM_eq_ok hfunctions hname
  obtain ⟨-, other, hother, hresult⟩ := exists_infer_of_ofFunction hstep
  cases hinfer.symm.trans hother
  refine ⟨o.finding, ?_, hresult⟩
  rw [hfindings]
  exact List.mem_append_right _ (List.mem_map_of_mem ho)

theorem exists_finding_of_square {code : List Char} {report : Report}
    (returned : scanRanges code = .ok report)
    (h : SolvesTo code (.ofLabel "n²") ∨ ReachesDepth code) :
    ∃ finding ∈ report.findings, finding.result = .ofLabel "n²" := by
  rcases h with hsolves | hdeep
  · exact exists_finding_of_solvesTo returned hsolves
  · obtain ⟨functions, -, hfindings⟩ := findings_scanRanges returned
    refine ⟨nestedLoop.finding, ?_, by decide⟩
    rw [hfindings]
    exact List.mem_append_left _ (List.mem_append_right _
      (List.mem_replicate.2 ⟨Nat.ne_of_gt ((deepLines_pos_iff code).2 hdeep),
        rfl⟩))

/-! ## Leading findings -/

theorem exists_leader {report : Report} {finding : Finding}
    (h : finding ∈ report.findings) :
    ∃ leader ∈ report.findings,
      report.time = leader.result ∧ leader.result.rank ≤ finding.result.rank := by
  have hmem : finding.result ∈ report.findings.map (·.result) :=
    List.mem_map_of_mem h
  have hleads := Bound.leads_combine (List.ne_nil_of_mem hmem)
  obtain ⟨leader, hleader, hresult⟩ := List.mem_map.1 hleads.mem
  refine ⟨leader, hleader, hresult.symm, ?_⟩
  rw [hresult]
  exact hleads.rank_le _ hmem

theorem ranks_ascend : (Bound.ofLabel "n!").rank = 0 ∧
    (Bound.ofLabel "n³").rank < (Bound.ofLabel "n²").rank ∧
    (Bound.ofLabel "n²").rank < GrowthClass.linear.rank := by decide

section

variable {code : List Char} {report : Report}
  (returned : scanRanges code = .ok report)

include returned

theorem time_of_imports (h : ImportsPermutations code) :
    report.time = .ofLabel "n!" := by
  obtain ⟨functions, -, hfindings⟩ := findings_scanRanges returned
  have hfactorial : permutations.finding.result = .ofLabel "n!" := by decide
  rw [if_pos (usesPermutations_iff.2 h)] at hfindings
  rw [← hfactorial]
  refine Bound.combine_map_of_head? (by rw [hfindings]; rfl) fun finding _ => ?_
  rw [hfactorial, ranks_ascend.1]
  exact Nat.zero_le _

variable (plain : ¬ ImportsPermutations code)

include plain

theorem time_ne_factorial : report.time ≠ .ofLabel "n!" := by
  intro htime
  cases hfindings : report.findings with
  | nil =>
      rw [Report.time, hfindings] at htime
      exact absurd htime (by decide)
  | cons first others =>
      have hfirst : first ∈ report.findings := hfindings ▸ List.mem_cons_self
      obtain ⟨leader, hleader, hresult, -⟩ := exists_leader hfirst
      rw [hresult] at htime
      rcases result_cases returned plain hleader with
        ⟨hcube, -⟩ | ⟨hsquare, -⟩ | hlinear
      · rw [hcube] at htime
        exact absurd htime (by decide)
      · rw [hsquare] at htime
        exact absurd htime (by decide)
      · rw [htime] at hlinear
        exact absurd hlinear (by decide)

theorem time_of_cube (cube : SolvesTo code (.ofLabel "n³")) :
    report.time = .ofLabel "n³" := by
  obtain ⟨finding, hfinding, hresult⟩ := exists_finding_of_solvesTo returned cube
  obtain ⟨leader, hleader, htime, hrank⟩ := exists_leader hfinding
  have hranks := ranks_ascend
  rw [hresult] at hrank
  rcases result_cases returned plain hleader with
    ⟨hcube, -⟩ | ⟨hsquare, -⟩ | hlinear
  · rw [htime, hcube]
  · rw [hsquare] at hrank
    omega
  · omega

variable (flat : ¬ SolvesTo code (.ofLabel "n³"))

include flat

theorem time_of_square
    (square : SolvesTo code (.ofLabel "n²") ∨ ReachesDepth code) :
    report.time = .ofLabel "n²" := by
  obtain ⟨finding, hfinding, hresult⟩ := exists_finding_of_square returned square
  obtain ⟨leader, hleader, htime, hrank⟩ := exists_leader hfinding
  have hranks := ranks_ascend
  rw [hresult] at hrank
  rcases result_cases returned plain hleader with
    ⟨-, hcube⟩ | ⟨hsquare, -⟩ | hlinear
  · exact absurd hcube flat
  · rw [htime, hsquare]
  · omega

variable (shallow : ¬ (SolvesTo code (.ofLabel "n²") ∨ ReachesDepth code))

include shallow

theorem time_of_first {first : Finding}
    (hfirst : report.findings.head? = some first) :
    report.time = first.result := by
  have hlinear : ∀ finding ∈ report.findings,
      finding.result.rank = GrowthClass.linear.rank := by
    intro finding hfinding
    rcases result_cases returned plain hfinding with
      ⟨-, hcube⟩ | ⟨-, hsquare⟩ | hlinear
    · exact absurd hcube flat
    · exact absurd hsquare shallow
    · exact hlinear
  refine Bound.combine_map_of_head? hfirst fun finding hfinding => ?_
  rw [hlinear first (List.mem_of_head? hfirst), hlinear finding hfinding]

omit flat in
theorem findings_of_shallow :
    ∃ functions,
      (allMatches definition? code).mapM (ofFunction definitionStyle code) =
        .ok functions ∧
      report.findings = report.findings.filter (·.construct = "For Loop") ++
        functions.map (·.finding) := by
  obtain ⟨functions, hfunctions, hfindings⟩ := findings_scanRanges returned
  have huses : usesPermutations code = false :=
    Bool.eq_false_iff.2 fun huses => plain (usesPermutations_iff.1 huses)
  have hdeep : deepLines 0 (lines code) = 0 := by
    by_contra hpositive
    exact shallow
      (.inr ((deepLines_pos_iff code).1 (Nat.pos_of_ne_zero hpositive)))
  refine ⟨functions, hfunctions, ?_⟩
  rw [filter_forLoop_scanRanges returned, hfindings, huses, hdeep]
  simp

private theorem time_of_loop {loop : Finding}
    (hloop : report.findings.find? (·.construct = "For Loop") = some loop) :
    report.time = loop.result := by
  obtain ⟨functions, -, hfindings⟩ := findings_of_shallow returned plain shallow
  refine time_of_first returned plain flat shallow ?_
  rw [hfindings, List.head?_append, List.head?_filter, hloop]
  rfl

private theorem time_of_definition
    (hnone : report.findings.find? (·.construct = "For Loop") = none) :
    (∀ name, (allMatches definition? code).head? = some name →
      ∃ r, definitionStyle.infer code name = .ok r ∧ report.time = r.solution) ∧
    ((allMatches definition? code).head? = none →
      report.time = .ofLabel "1") := by
  obtain ⟨functions, hfunctions, hfindings⟩ :=
    findings_of_shallow returned plain shallow
  have hhead : report.findings.head? = functions.head?.map (·.finding) := by
    rw [hfindings, List.head?_append, List.head?_filter, hnone, List.head?_map]
    rfl
  have hfirst : ∀ first, functions.head? = some first →
      report.time = first.finding.result := by
    intro first hfunction
    refine time_of_first returned plain flat shallow ?_
    rw [hhead, hfunction, Option.map_some]
  have hempty : functions = [] → report.time = .ofLabel "1" := by
    rintro rfl
    rw [Report.time, List.head?_eq_none_iff.1 hhead]
    rfl
  rw [mapM_eq_ok_iff] at hfunctions
  generalize allMatches definition? code = names at hfunctions
  cases hfunctions with
  | nil => simpa using hempty
  | cons hstep hothers =>
      obtain ⟨-, r, hinfer, hresult⟩ := exists_infer_of_ofFunction hstep
      refine ⟨fun name hname => ?_, by simp⟩
      obtain rfl := Option.some.inj hname
      exact ⟨r, hinfer, (hfirst _ rfl).trans hresult⟩

end

end Scan

open Scan

/--
The time of a snippet in the manner of Python is factorial exactly if it
imports permutations.  Otherwise it is cubic if a definition solves to a cube,
and else quadratic if one solves to a square or a line opens a second level.
If none of these holds the first loop decides, without loops the first
definition, and without either the time is constant.
-/
theorem time_decided_by_passes (parse : Parser) (code : String) (report : Report)
    (returned : Profile.python.scan parse code = .ok report) :
    (report.time = .ofLabel "n!" ↔ ImportsPermutations code.toList) ∧
    (¬ ImportsPermutations code.toList →
      (SolvesTo code.toList (.ofLabel "n³") → report.time = .ofLabel "n³") ∧
      (¬ SolvesTo code.toList (.ofLabel "n³") →
        (SolvesTo code.toList (.ofLabel "n²") ∨ ReachesDepth code.toList →
          report.time = .ofLabel "n²") ∧
        (¬ (SolvesTo code.toList (.ofLabel "n²") ∨ ReachesDepth code.toList) →
          (∀ loop, report.findings.find? (·.construct = "For Loop") = some loop →
            report.time = loop.result) ∧
          (report.findings.find? (·.construct = "For Loop") = none →
            (∀ name, (allMatches definition? code.toList).head? = some name →
              ∃ r, definitionStyle.infer code.toList name = .ok r ∧
                report.time = r.solution) ∧
            ((allMatches definition? code.toList).head? = none →
              report.time = .ofLabel "1"))))) := by
  refine ⟨⟨fun htime => ?_, time_of_imports returned⟩, fun plain => ?_⟩
  · by_contra plain
    exact time_ne_factorial returned plain htime
  · refine ⟨time_of_cube returned plain, fun flat => ?_⟩
    refine ⟨time_of_square returned plain flat, fun shallow => ?_⟩
    exact ⟨fun _ => time_of_loop returned plain flat shallow,
      time_of_definition returned plain flat shallow⟩

def eightfoldSnippet : String :=
  "for i in range(n):\n    for j in range(n):\ndef f(n):\n    f(n/2) + f(n) + f(n) + f(n)" ++
    " + f(n) + f(n) + f(n) + f(n)"

def eightfoldReport : Report where
  findings := [
    ⟨"For Loop", "Python for loop with range(n)", .ofLabel "n"⟩,
    ⟨"For Loop", "Python for loop with range(n)", .ofLabel "n"⟩,
    ⟨"Nested For Loops", "Nested loops creating quadratic complexity",
      .ofLabel "n²"⟩,
    ⟨"Recursive Function", "Function f with 8 recursive calls, n/2 reduction",
      .ofLabel "n³"⟩]
  space := .ofLabel "log_2 n"

def doublingLoopSnippet : String :=
  "for i in range(1, n, i * 2):\n    print(i)\ndef f(n):\n    f(n/2) + f(n/2)"

def doublingLoopReport : Report where
  findings := [
    ⟨"For Loop", "Logarithmic loop with multiplicative step", .ofLabel "log n"⟩,
    ⟨"Recursive Function", "Function f with 2 recursive calls, n/2 reduction",
      .ofLabel "n^1.0000"⟩]
  space := .ofLabel "log_2 n"

theorem time_decided_by_passes_eightfoldSnippet :
    (Profile.python.scan (Parser.knowing []) eightfoldSnippet =
      .ok eightfoldReport ∧
      ReachesDepth eightfoldSnippet.toList ∧
      eightfoldReport.time = .ofLabel "n³") ∧
    Profile.python.scan (Parser.knowing []) doublingLoopSnippet =
      .ok doublingLoopReport ∧
      SolvesTo doublingLoopSnippet.toList (.ofLabel "n^1.0000") ∧
      doublingLoopReport.time = .ofLabel "log n" := by
  constructor
  · have returned : Profile.python.scan (Parser.knowing []) eightfoldSnippet =
        .ok eightfoldReport := by
      decide +kernel
    have cube : SolvesTo eightfoldSnippet.toList (.ofLabel "n³") := by
      decide +kernel
    obtain ⟨-, hother⟩ := time_decided_by_passes _ _ _ returned
    exact ⟨returned, by decide +kernel, (hother (by decide +kernel)).1 cube⟩
  · have returned : Profile.python.scan (Parser.knowing []) doublingLoopSnippet =
        .ok doublingLoopReport := by
      decide +kernel
    have hresults : ∀ finding ∈ doublingLoopReport.findings,
        finding.result ≠ .ofLabel "n³" ∧ finding.result ≠ .ofLabel "n²" := by
          decide
    have flat : ¬ SolvesTo doublingLoopSnippet.toList (.ofLabel "n³") := by
      intro hcube
      obtain ⟨finding, hfinding, hresult⟩ :=
        exists_finding_of_solvesTo returned hcube
      exact (hresults finding hfinding).1 hresult
    have shallow : ¬ (SolvesTo doublingLoopSnippet.toList (.ofLabel "n²") ∨
        ReachesDepth doublingLoopSnippet.toList) := by
      intro hsquare
      obtain ⟨finding, hfinding, hresult⟩ :=
        exists_finding_of_square returned hsquare
      exact (hresults finding hfinding).2 hresult
    obtain ⟨-, hother⟩ := time_decided_by_passes _ _ _ returned
    obtain ⟨-, hflat⟩ := hother (by decide +kernel)
    exact ⟨returned, by decide +kernel, ((hflat flat).2 shallow).1 _ rfl⟩

end SnippetGrowth
