import SnippetGrowth.Profile
import SnippetGrowth.Proofs.NumberTexts
import SnippetGrowth.Proofs.Outcome
import SnippetGrowth.Proofs.Recognisers

/-!
# What scans observe

The four scans are made of the same observations.  A loop has one of four
growth expressions and entails no space.  A function that calls itself shows
the reduction factor of its recurrence in its rationale and entails a space
with the same factor.  Permutations of an imported module can only stand at
the head of a report.

What is to hold of every report is therefore shown of these three, and not of
each branch of each scan.
-/

namespace SnippetGrowth

open Scan

/-! ## Kinds of observations -/

def loopConstructs : List String :=
  [Finding.forLoop, Finding.whileLoop, Finding.nestedLoops]

def loopExpressions : List String := ["n", "log n", "n log n", "n²"]

structure Finding.IsOfLoop (f : Finding) : Prop where
  construct : f.construct ∈ loopConstructs
  expression : ∃ expression ∈ loopExpressions, f.result = .ofExpression expression

theorem Finding.IsOfLoop.of_expression {construct rationale expression : String}
    (hconstruct : construct ∈ loopConstructs)
    (hexpression : expression ∈ loopExpressions) :
    IsOfLoop ⟨construct, rationale, .ofExpression expression⟩ :=
  ⟨hconstruct, expression, hexpression, rfl⟩

/-- Whether a finding solves a recurrence and its rationale shows the given
reduction factor: the first slash and the blank after it enclose the factor. -/
structure Finding.IsOfRecursion (f : Finding) (reduction : String) : Prop where
  construct : f.construct = Finding.recursiveFunction
  shown : ∃ opening closing, '/' ∉ opening.toList ∧
    f.rationale = opening ++ "n/" ++ reduction ++ " reduction" ++ closing
  unbroken : ' ' ∉ reduction.toList
  solved : ∃ r : Recurrence, f.result = r.solution

inductive Observation.Arises : Observation → Prop
  | loop {finding : Finding} (h : finding.IsOfLoop) : Arises ⟨finding, none⟩
  | recursion {finding : Finding} {reduction : String}
      (h : finding.IsOfRecursion reduction) :
      Arises ⟨finding, some (recursionSpace reduction)⟩

/-- Whether a report is made of observations that arise, perhaps after imported
permutations. -/
def Report.IsScanned (r : Report) : Prop :=
  ∃ imported observations, r = .ofObservations (imported ++ observations) ∧
    (imported = [] ∨ imported = [permutations]) ∧ ∀ o ∈ observations, o.Arises

def parsingPreface : String := "JavaScript parsing error: Syntax error: "

def parsingError (description : String) : String := parsingPreface ++ description

/-! ## Findings of one construct -/

section

variable {ι : Type} {items : List ι} {finding : ι → Finding} {construct : String}

theorem filter_construct_eq_self
    (h : ∀ item ∈ items, (finding item).construct = construct) :
    (items.map finding).filter (·.construct = construct) = items.map finding := by
  refine List.filter_eq_self.2 fun found hfound => ?_
  obtain ⟨item, hitem, rfl⟩ := List.mem_map.1 hfound
  exact decide_eq_true (h item hitem)

theorem filter_construct_eq_nil
    (h : ∀ item ∈ items, (finding item).construct ≠ construct) :
    (items.map finding).filter (·.construct = construct) = [] := by
  refine List.filter_eq_nil_iff.2 fun found hfound => ?_
  obtain ⟨item, hitem, rfl⟩ := List.mem_map.1 hfound
  simpa using h item hitem

end

/-! ## Loops -/

namespace Scan

theorem arises_ofHeader {nested : Bool} {header : List Char} {o : Observation}
    (returned : ofHeader nested header = .ok o) : o.Arises := by
  unfold ofHeader at returned
  split at returned
  · cases returned
    exact .loop (.of_expression (by decide) (by decide))
  · obtain ⟨multiplicative, -, rfl⟩ := map_eq_ok_iff.1 returned
    cases multiplicative with
    | true => exact .loop (.of_expression (by decide) (by decide))
    | false => exact .loop (.of_expression (by decide) (by decide))

theorem arises_whileHeader :
    whileHeader.Arises := .loop (.of_expression (by decide) (by decide))

theorem arises_ofRangeLoop (loop : List Char) : (ofRangeLoop loop).Arises := by
  unfold ofRangeLoop
  split <;> exact .loop (.of_expression (by decide) (by decide))

theorem arises_nestedLoop :
    nestedLoop.Arises := .loop (.of_expression (by decide) (by decide))

theorem arises_countedLoop :
    countedLoop.Arises := .loop (.of_expression (by decide) (by decide))

theorem arises_ofFor (loop : Node) : (ofFor loop).Arises := by
  have hstandard : ofFor.standard.IsOfLoop :=
    .of_expression (by decide) (by decide)
  unfold ofFor
  apply Observation.Arises.loop
  split
  · exact hstandard
  · split
    · exact .of_expression (by decide) (by decide)
    · split
      · exact .of_expression (by decide) (by decide)
      · exact hstandard
    · exact hstandard

theorem arises_whileStatement : whileStatement.Arises :=
  .loop (.of_expression (by decide) (by decide))

/-! ## Functions -/

theorem exists_infer_of_ofFunction {style : CallStyle} {code name : List Char}
    {o : Observation} (returned : ofFunction style code name = .ok o) :
    o.finding.construct = "Recursive Function" ∧
      ∃ r, style.infer code name = .ok r ∧ o.finding.result = r.solution := by
  obtain ⟨r, hinfer, returned⟩ := bind_eq_ok_iff.1 returned
  obtain ⟨branching, -, returned⟩ := bind_eq_ok_iff.1 returned
  obtain ⟨reduction, -, returned⟩ := bind_eq_ok_iff.1 returned
  cases returned
  exact ⟨rfl, r, hinfer, rfl⟩

theorem construct_of_mem_functions {style : CallStyle} {code : List Char}
    {names : List (List Char)} {functions : List Observation}
    (returned : names.mapM (ofFunction style code) = .ok functions) :
    ∀ o ∈ functions, o.finding.construct = "Recursive Function" := by
  intro o ho
  obtain ⟨name, -, hname⟩ := exists_item_of_mapM_eq_ok returned ho
  exact (exists_infer_of_ofFunction hname).1

theorem arises_ofFunction {style : CallStyle} {code name : List Char}
    {o : Observation} (hname : IsName name)
    (returned : ofFunction style code name = .ok o) :
    o.Arises := by
  obtain ⟨r, -, returned⟩ := bind_eq_ok_iff.1 returned
  obtain ⟨branching, hbranching, returned⟩ := bind_eq_ok_iff.1 returned
  obtain ⟨reduction, hreduction, returned⟩ := bind_eq_ok_iff.1 returned
  cases returned
  have hslash : '/' ∉ name :=
    fun h => absurd (hname.isWord_of_mem _ h) (by decide)
  refine .recursion ⟨rfl, ?_, not_mem_numberText hreduction (by decide), r, rfl⟩
  refine ⟨"Function " ++ String.ofList name ++ " with " ++ branching ++
    " recursive calls, ", "", ?_, ?_⟩
  · simp [String.toList_append, hslash,
      not_mem_numberText hbranching (c := '/') (by decide)]
  · simp [← String.toList_inj]

theorem arises_ofDeclaration {declaration : Node}
    {observations : List Observation}
    (returned : ofDeclaration declaration = .ok observations) :
    ∀ o ∈ observations, o.Arises := by
  obtain ⟨recurrence, -, returned⟩ := bind_eq_ok_iff.1 returned
  cases recurrence with
  | none =>
      cases returned
      simp
  | some r =>
      obtain ⟨branching, hbranching, returned⟩ := bind_eq_ok_iff.1 returned
      obtain ⟨reduction, hreduction, returned⟩ := bind_eq_ok_iff.1 returned
      cases returned
      intro o ho
      rw [List.mem_singleton.1 ho]
      refine .recursion ⟨rfl, ?_, not_mem_numberText hreduction (by decide),
        r, rfl⟩
      refine ⟨"Recursive function with " ++ branching ++ " calls, ",
        ", " ++ r.extraWork.text ++ " extra work", ?_, ?_⟩
      · simp [String.toList_append,
          not_mem_numberText hbranching (c := '/') (by decide)]
      · simp [← String.toList_inj]

theorem arises_ofNode {node : Node} {observations : List Observation}
    (returned : ofNode node = .ok observations) :
    ∀ o ∈ observations, o.Arises := by
  unfold ofNode at returned
  split at returned
  · cases returned
    intro o ho
    rw [List.mem_singleton.1 ho]
    exact arises_ofFor node
  · split at returned
    · cases returned
      intro o ho
      rw [List.mem_singleton.1 ho]
      exact arises_whileStatement
    · split at returned
      · exact arises_ofDeclaration returned
      · cases returned
        simp

/-! ## Scans -/

theorem isScanned_scanHeaders {code : List Char} {report : Report}
    (returned : scanHeaders code = .ok report) : report.IsScanned := by
  obtain ⟨loops, hloops, returned⟩ := bind_eq_ok_iff.1 returned
  cases returned
  refine ⟨[], _, rfl, .inl rfl, fun o ho => ?_⟩
  rcases List.mem_append.1 ho with hloop | hwhile
  · obtain ⟨header, -, hheader⟩ := exists_item_of_mapM_eq_ok hloops hloop
    exact arises_ofHeader hheader
  · obtain ⟨header, -, rfl⟩ := List.mem_map.1 hwhile
    exact arises_whileHeader

private theorem isScanned_scanRanges {code : List Char} {report : Report}
    (returned : scanRanges code = .ok report) : report.IsScanned := by
  obtain ⟨functions, hfunctions, returned⟩ := bind_eq_ok_iff.1 returned
  cases returned
  rw [List.append_assoc, List.append_assoc]
  refine ⟨_, _, rfl, ?_, fun o ho => ?_⟩
  · split
    · exact .inr rfl
    · exact .inl rfl
  · simp only [List.mem_append] at ho
    rcases ho with hloop | hnested | hfunction
    · obtain ⟨loop, -, rfl⟩ := List.mem_map.1 hloop
      exact arises_ofRangeLoop loop
    · rw [(List.mem_replicate.1 hnested).2]
      exact arises_nestedLoop
    · obtain ⟨name, hname, hstep⟩ :=
        exists_item_of_mapM_eq_ok hfunctions hfunction
      exact arises_ofFunction (isName_of_mem_definitions hname) hstep

private theorem isScanned_scanCounted {code : List Char} {report : Report}
    (returned : scanCounted code = .ok report) : report.IsScanned := by
  obtain ⟨functions, hfunctions, returned⟩ := bind_eq_ok_iff.1 returned
  cases returned
  refine ⟨[], _, rfl, .inl rfl, fun o ho => ?_⟩
  rcases List.mem_append.1 ho with hloop | hfunction
  · obtain ⟨loop, -, rfl⟩ := List.mem_map.1 hloop
    exact arises_countedLoop
  · obtain ⟨name, hname, hstep⟩ := exists_item_of_mapM_eq_ok hfunctions hfunction
    exact arises_ofFunction (isName_of_mem_functionHeaders hname) hstep

theorem isScanned_scanTree {tree : Tree} {report : Report}
    (returned : scanTree tree = .ok report) :
    report.IsScanned ∨
    ∃ description, report = .ofError (parsingError description) := by
  unfold scanTree at returned
  split at returned
  · next description _ =>
      cases returned
      exact .inr ⟨description, rfl⟩
  · obtain ⟨observations, hobservations, returned⟩ := bind_eq_ok_iff.1 returned
    cases returned
    refine .inl ⟨[], _, rfl, .inl rfl, fun o ho => ?_⟩
    obtain ⟨shown, hshown, ho⟩ := List.mem_flatten.1 ho
    obtain ⟨node, -, hnode⟩ := exists_item_of_mapM_eq_ok hobservations hshown
    exact arises_ofNode hnode o ho

end Scan

theorem Profile.isScanned_scan {profile : Profile} {parse : Parser}
    {code : String} {report : Report}
    (returned : profile.scan parse code = .ok report) :
    report.IsScanned ∨
    ∃ description, report = .ofError (parsingError description) := by
  cases profile with
  | c => exact .inl (isScanned_scanHeaders returned)
  | python => exact .inl (isScanned_scanRanges returned)
  | pascal => exact .inl (isScanned_scanCounted returned)
  | javascript => exact isScanned_scanTree returned

end SnippetGrowth
