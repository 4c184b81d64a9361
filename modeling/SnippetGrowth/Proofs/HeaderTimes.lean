import SnippetGrowth.Proofs.Combination
import SnippetGrowth.Proofs.Layouts

/-!
# The time of a snippet with headers

In a snippet in the manner of C all headers of `for` have one rank.  It is
that of a `while` header, or above it if the lines of the snippet are nested,
and the headers of `for` are reported first.  So the first of them decides the
time alone, and those of `while` only matter where there is none.
-/

namespace SnippetGrowth

namespace Scan

open Text

variable {nested : Bool} {header : List Char} {o : Observation}

/-! ## Results of headers -/

theorem result_ofHeader (returned : ofHeader nested header = .ok o) :
    (nested = true ∧ o.finding.result = .ofLabel "n log n") ∨
      nested = false ∧
      ∃ multiplicative, isMultiplicativeUpdate header = .ok multiplicative ∧
        o.finding.result =
          .ofLabel (if multiplicative then "log n" else "n") := by
  unfold ofHeader at returned
  split at returned
  · next hnested =>
      cases returned
      exact .inl ⟨hnested, by decide⟩
  · next hnested =>
      obtain ⟨multiplicative, hupdate, rfl⟩ := map_eq_ok_iff.1 returned
      refine .inr ⟨Bool.eq_false_iff.2 hnested, multiplicative, hupdate, ?_⟩
      cases multiplicative <;> decide

def headerClass (nested : Bool) : GrowthClass :=
  if nested then .linearithmic else .linear

theorem rank_ofHeader (returned : ofHeader nested header = .ok o) :
    o.finding.result.rank = (headerClass nested).rank := by
  rcases result_ofHeader returned with
    ⟨rfl, hresult⟩ | ⟨rfl, multiplicative, -, hresult⟩
  · rw [hresult]
    decide
  · rw [hresult]
    cases multiplicative <;> decide

private theorem rank_headerClass_le (nested : Bool) :
    (headerClass nested).rank ≤ whileHeader.finding.result.rank := by
  cases nested <;> decide

/-! ## The first header -/

private theorem filter_forLoop {loops : List Observation}
    (hloops : ∀ o ∈ loops, o.finding.construct = "For Loop")
    (whiles : List (List Char)) :
    (Report.ofObservations
      (loops ++ whiles.map fun _ => whileHeader)).findings.filter
      (·.construct = "For Loop") = loops.map (·.finding) := by
  have hwhiles : ∀ header ∈ whiles, whileHeader.finding.construct ≠ "For Loop" :=
    fun _ _ => by decide
  rw [Report.ofObservations, List.map_append, List.filter_append,
    filter_construct_eq_self hloops, List.map_map]
  exact (congrArg _ (filter_construct_eq_nil hwhiles)).trans (List.append_nil _)

theorem time_ofObservations (observations : List Observation) :
    (Report.ofObservations observations).time =
      Bound.combine (observations.map (·.finding.result)) := by
  rw [Report.time, Report.ofObservations, List.map_map]
  rfl

theorem time_of_cons {code first : List Char} {others : List (List Char)}
    (hheaders : headers "for" code = first :: others) :
    ∃ report o, scanHeaders code = .ok report ∧
      ofHeader (nestingReached (lines code)) first = .ok o ∧
      report.time = o.finding.result ∧
      Bound.combine ((report.findings.filter (·.construct = "For Loop")).map
        (·.result)) =
        o.finding.result := by
  obtain ⟨loops, hloops, hscan⟩ := exists_scanHeaders code
  have hreturned : ∀ o ∈ loops,
      ∃ header, ofHeader (nestingReached (lines code)) header = .ok o := by
    intro o ho
    obtain ⟨header, -, returned⟩ := exists_item_of_mapM_eq_ok hloops ho
    exact ⟨header, returned⟩
  have hconstruct : ∀ o ∈ loops, o.finding.construct = "For Loop" := by
    intro o ho
    obtain ⟨header, returned⟩ := hreturned o ho
    exact construct_ofHeader returned
  rw [hheaders, mapM_eq_ok_iff] at hloops
  obtain ⟨o, others, hfirst, -, rfl⟩ := List.forall₂_cons_left_iff.1 hloops
  have hrank := rank_ofHeader hfirst
  have hothers : ∀ other ∈ o :: others,
      o.finding.result.rank ≤ other.finding.result.rank := by
    intro other hother
    obtain ⟨header, returned⟩ := hreturned other hother
    rw [hrank, rank_ofHeader returned]
  refine ⟨_, o, hscan, hfirst, ?_, ?_⟩
  · rw [time_ofObservations]
    refine Bound.combine_map_of_head? rfl fun found hfound => ?_
    rcases List.mem_append.1 hfound with hloop | hwhile
    · exact hothers found hloop
    · obtain ⟨header, -, rfl⟩ := List.mem_map.1 hwhile
      rw [hrank]
      exact rank_headerClass_le _
  · rw [filter_forLoop hconstruct, List.map_map]
    exact Bound.combine_map_of_head? rfl hothers

private theorem time_of_nil {code : List Char}
    (hheaders : headers "for" code = []) :
    ∃ report, scanHeaders code = .ok report ∧
      report.time = if headers "while" code = [] then .ofLabel "1"
        else .ofLabel "n" := by
  obtain ⟨loops, hloops, hscan⟩ := exists_scanHeaders code
  rw [hheaders, List.mapM_nil] at hloops
  cases hloops
  refine ⟨_, hscan, ?_⟩
  cases headers "while" code with
  | nil => rfl
  | cons header others =>
      have hlinear : whileHeader.finding.result = .ofLabel "n" := by decide
      rw [if_neg (List.cons_ne_nil header others), ← hlinear, time_ofObservations,
        List.nil_append, List.map_map]
      exact Bound.combine_map_of_head? rfl fun _ _ => Nat.le_refl _

/-! ## Verdicts -/

/-- Whether the first header of `for` has an update clause that multiplies or
divides. -/
def FirstMultiplies (code : List Char) : Prop :=
  ∃ first others, headers "for" code = first :: others ∧
    isMultiplicativeUpdate first = .ok true

/-- What the time of a snippet can be, and why. -/
inductive HeaderTime (code : List Char) : Bound → Prop
  | plain (noFor : headers "for" code = [])
    (noWhile : headers "while" code = []) :
      HeaderTime code (.ofLabel "1")
  | whiles (noFor : headers "for" code = [])
      (someWhile : headers "while" code ≠ []) :
      HeaderTime code (.ofLabel "n")
  | nested (someFor : headers "for" code ≠ [])
      (reached : nestingReached (lines code) = true) :
      HeaderTime code (.ofLabel "n log n")
  | multiplied (first : FirstMultiplies code)
      (apart : nestingReached (lines code) = false) :
      HeaderTime code (.ofLabel "log n")
  | counted (someFor : headers "for" code ≠ []) (first : ¬ FirstMultiplies code)
      (apart : nestingReached (lines code) = false) :
        HeaderTime code (.ofLabel "n")

private theorem headerTime_scanHeaders (code : List Char) :
    ∃ report, scanHeaders code = .ok report ∧ HeaderTime code report.time ∧
      (headers "for" code ≠ [] → report.time =
        Bound.combine ((report.findings.filter (·.construct = "For Loop")).map
          (·.result))) := by
  cases hheaders : headers "for" code with
  | nil =>
      obtain ⟨report, hscan, htime⟩ := time_of_nil hheaders
      refine ⟨report, hscan, ?_, by simp⟩
      rw [htime]
      split
      · next hwhile => exact .plain hheaders hwhile
      · next hwhile => exact .whiles hheaders hwhile
  | cons first others =>
      obtain ⟨report, o, hscan, hfirst, htime, hloops⟩ := time_of_cons hheaders
      have hsome : headers "for" code ≠ [] := by simp [hheaders]
      refine ⟨report, hscan, ?_, fun _ => htime.trans hloops.symm⟩
      rcases result_ofHeader hfirst with
        ⟨hnested, hresult⟩ | ⟨hapart, multiplicative, hupdate, hresult⟩
      · rw [htime, hresult]
        exact .nested hsome hnested
      · rw [htime, hresult]
        cases multiplicative with
        | true => exact .multiplied ⟨first, others, hheaders, hupdate⟩ hapart
        | false =>
            refine .counted hsome ?_ hapart
            rintro ⟨other, rest, hother, hmultiplies⟩
            obtain ⟨rfl, rfl⟩ := List.cons.inj (hheaders.symm.trans hother)
            rw [hupdate] at hmultiplies
            contradiction

theorem FirstMultiplies.someFor {code : List Char} (h : FirstMultiplies code) :
    headers "for" code ≠ [] := by
  obtain ⟨first, others, hheaders, -⟩ := h
  simp [hheaders]

/-- The reasons for the times exclude each other. -/
theorem HeaderTime.verdict {code : List Char} {time : Bound}
    (h : HeaderTime code time) :
    (time = .ofLabel "n log n" ↔
        nestingReached (lines code) = true ∧ headers "for" code ≠ []) ∧
      (time = .ofLabel "1" ↔ headers "for" code = [] ∧
        headers "while" code = []) ∧
      (¬ (nestingReached (lines code) = true ∧ headers "for" code ≠ []) →
        ¬ (headers "for" code = [] ∧ headers "while" code = []) →
        (FirstMultiplies code → time = .ofLabel "log n") ∧
        (¬ FirstMultiplies code → time = .ofLabel "n")) := by
  have hlabel : ∀ {label other : String}, Bound.ofLabel label = .ofLabel other ↔
      label = other :=
    ⟨Bound.ofLabel_injective, congrArg Bound.ofLabel⟩
  cases h with
  | plain noFor noWhile => simp [hlabel, noFor, noWhile]
  | whiles noFor someWhile =>
      have hnone : ¬ FirstMultiplies code := fun h => h.someFor noFor
      simp [hlabel, noFor, someWhile, hnone]
  | nested someFor reached => simp [hlabel, someFor, reached]
  | multiplied first apart => simp [hlabel, first, first.someFor, apart]
  | counted someFor first apart => simp [hlabel, someFor, first, apart]

end Scan

open Scan

/--
The time of a snippet in the manner of C is linearithmic exactly if its lines
are nested and it has a header of `for`, and constant exactly if it has no
header.  Otherwise it is logarithmic if the first header of `for` multiplies,
and linear if it does not or there is none.  With a header of `for` those of
`while` do not matter.
-/
theorem time_decided_by_first_header (parse : Parser) (code : String) :
    ∃ report, Profile.c.scan parse code = .ok report ∧
      (report.time = .ofLabel "n log n" ↔
        nestingReached (Text.lines code.toList) = true ∧
        headers "for" code.toList ≠ []) ∧
      (report.time = .ofLabel "1" ↔
        headers "for" code.toList = [] ∧ headers "while" code.toList = []) ∧
      (¬ (nestingReached (Text.lines code.toList) = true ∧
        headers "for" code.toList ≠ []) →
        ¬ (headers "for" code.toList = [] ∧ headers "while" code.toList = []) →
        (FirstMultiplies code.toList → report.time = .ofLabel "log n") ∧
        (¬ FirstMultiplies code.toList → report.time = .ofLabel "n")) ∧
      (headers "for" code.toList ≠ [] → report.time =
        Bound.combine ((report.findings.filter (·.construct = "For Loop")).map
          (·.result))) := by
  obtain ⟨report, hscan, htime, hloops⟩ := headerTime_scanHeaders code.toList
  obtain ⟨hnested, hconstant, hother⟩ := htime.verdict
  exact ⟨report, hscan, hnested, hconstant, hother, hloops⟩

/-- Lines may be nested where there is no header of `for`. -/
example :
    (Profile.c.scan (Parser.knowing []) "for each\nwhile (more)").map
      Report.time = .ok (.ofLabel "n") := by
  decide +kernel

end SnippetGrowth
