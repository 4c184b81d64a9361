import SnippetGrowth.Proofs.Dominance
import SnippetGrowth.Proofs.Headers
import SnippetGrowth.Proofs.Labels
import SnippetGrowth.Proofs.Limits

/-!
# Code behind a snippet

More lines behind a snippet in the manner of C never make its time less
dominant.  The headers found so far stay, the nesting that is reached stays
reached, and where it is reached only now every `for` header becomes more
dominant.
-/

namespace SnippetGrowth

open Text

namespace Scan

/-! ## Nesting -/

private theorem nestingReachedFrom_append {threshold depth : Int}
    {lines : List (List Char)}
    (h : nestingReachedFrom threshold depth lines = true)
    (more : List (List Char)) :
    nestingReachedFrom threshold depth (lines ++ more) = true := by
  induction lines generalizing depth with
  | nil => simp [nestingReachedFrom] at h
  | cons line lines ih =>
      rw [nestingReachedFrom] at h
      rw [List.cons_append, nestingReachedFrom]
      cases hopens : opensLevel line with
      | true =>
          simp only [hopens, if_true, Bool.or_eq_true] at h ⊢
          exact h.imp_right ih
      | false =>
          cases hcloses : closesLevel line with
          | true =>
              simp only [hopens, hcloses, Bool.false_eq_true, if_false,
                if_true] at h ⊢
              exact ih h
          | false =>
              simp only [hopens, hcloses, Bool.false_eq_true, if_false] at h ⊢
              exact ih h

private theorem nestingReached_append {front : List Char}
    (h : nestingReached (lines front) = true) (rest : List Char) :
    nestingReached (lines (front ++ '\n' :: rest)) = true := by
  rw [lines, split_append_separator]
  exact nestingReachedFrom_append h _

/-! ## Headers -/

private theorem rank_ofHeader_le {nested nestedNow : Bool} {header : List Char}
    {o now : Observation} (still : nested = true → nestedNow = true)
    (ho : ofHeader nested header = .ok o)
    (hnow : ofHeader nestedNow header = .ok now) :
    now.finding.result.rank ≤ o.finding.result.rank := by
  cases hnested : nestedNow with
  | false =>
      have hbefore : nested = false := by
        cases nested with
        | false => rfl
        | true => exact (still rfl).symm.trans hnested
      rw [hnested] at hnow
      rw [hbefore, hnow] at ho
      cases ho
      exact Nat.le_refl _
  | true =>
      have hkinds : o = nestedHeader ∨ o = logarithmicHeader ∨
          o = linearHeader := by
        unfold ofHeader at ho
        split at ho
        · cases ho
          exact .inl rfl
        · obtain ⟨multiplicative, -, rfl⟩ := map_eq_ok_iff.1 ho
          cases multiplicative <;> simp
      have hdominant : ∀ other ∈ [nestedHeader, logarithmicHeader, linearHeader],
          nestedHeader.finding.result.rank ≤ other.finding.result.rank := by
            decide
      rw [hnested] at hnow
      cases hnow
      exact hdominant o (by simpa using hkinds)

/-! ## Snippets -/

theorem exists_scanHeaders (code : List Char) :
    ∃ loops, (headers "for" code).mapM (ofHeader (nestingReached (lines code))) =
      .ok loops ∧
      scanHeaders code =
        .ok (.ofObservations (loops ++ (headers "while" code).map
          fun _ => whileHeader)) := by
  obtain ⟨report, hreport⟩ := (scanHeaders_failsExactly code).exists_ok id
  obtain ⟨loops, hloops, hresult⟩ := bind_eq_ok_iff.1 hreport
  rw [hreport]
  exact ⟨loops, hloops, hresult.symm⟩

private theorem findings_met_of_appended {front rest : List Char}
    {report extended : Report} (before : scanHeaders front = .ok report)
    (after : scanHeaders (front ++ '\n' :: rest) = .ok extended) :
    ∀ finding ∈ report.findings, ∃ other ∈ extended.findings,
      other.result.rank ≤ finding.result.rank := by
  obtain ⟨loops, hloops, hbefore⟩ := exists_scanHeaders front
  obtain ⟨loopsNow, hloopsNow, hafter⟩ :=
    exists_scanHeaders (front ++ '\n' :: rest)
  cases before.symm.trans hbefore
  cases after.symm.trans hafter
  intro finding hfinding
  obtain ⟨o, ho, rfl⟩ := List.mem_map.1 hfinding
  rcases List.mem_append.1 ho with hloop | hwhile
  · obtain ⟨header, hheader, hresult⟩ := exists_item_of_mapM_eq_ok hloops hloop
    have hkept : header ∈ headers "for" (front ++ '\n' :: rest) :=
      (headers_isPrefix (by decide) front _).subset hheader
    obtain ⟨now, hnow, hresultNow⟩ := exists_result_of_mapM_eq_ok hloopsNow hkept
    refine ⟨now.finding, List.mem_map_of_mem (List.mem_append_left _ hnow), ?_⟩
    exact rank_ofHeader_le
      (fun h => nestingReached_append h rest) hresult hresultNow
  · obtain ⟨header, hheader, rfl⟩ := List.mem_map.1 hwhile
    have hkept : header ∈ headers "while" (front ++ '\n' :: rest) :=
      (headers_isPrefix (by decide) front _).subset hheader
    have hmem : whileHeader ∈ (headers "while" (front ++ '\n' :: rest)).map
        fun _ => whileHeader :=
      List.mem_map.2 ⟨header, hkept, rfl⟩
    exact ⟨whileHeader.finding,
      List.mem_map_of_mem (List.mem_append_right _ hmem), Nat.le_refl _⟩

end Scan

private theorem Report.rank_time_le_constant {profile : Profile} {parse : Parser}
    {code : String} {report : Report}
    (returned : profile.scan parse code = .ok report) :
    report.time.rank ≤ Bound.constant.rank := by
  rcases Bound.combine_eq_constant_or_mem (report.findings.map (·.result)) with
    hnone | hmem
  · rw [Report.time, hnone]
  · obtain ⟨finding, hfinding, hresult⟩ := List.mem_map.1 hmem
    have hlinear :=
      (Report.isGrowing_of_scan returned finding hfinding).rank_le_linear
    have hconstant : GrowthClass.linear.rank ≤ Bound.constant.rank := by decide
    rw [Report.time, ← hresult]
    exact Nat.le_trans hlinear hconstant

/--
The scan of a snippet in the manner of C always gives a report, and with code
on further lines its time is at least as dominant as without.
-/
theorem rank_time_appended_le (parse : Parser) (code more : String) :
    ∃ report extended, Profile.c.scan parse code = .ok report ∧
      Profile.c.scan parse (code ++ "\n" ++ more) = .ok extended ∧
      extended.time.rank ≤ report.time.rank := by
  obtain ⟨report, before⟩ :=
    (Profile.c.scan_failsExactly parse nofun code).exists_ok id
  obtain ⟨extended, after⟩ :=
    (Profile.c.scan_failsExactly parse nofun (code ++ "\n" ++ more)).exists_ok
      id
  refine ⟨report, extended, before, after, ?_⟩
  have htext : (code ++ "\n" ++ more).toList =
      code.toList ++ '\n' :: more.toList := by
    simp [String.toList_append]
  have hscan : Scan.scanHeaders (code.toList ++ '\n' :: more.toList) =
      .ok extended := by
    rw [← htext]
    exact after
  refine Bound.rank_combine_le_of_met ?_ (Report.rank_time_le_constant after)
  intro bound hbound
  obtain ⟨finding, hfinding, rfl⟩ := List.mem_map.1 hbound
  obtain ⟨other, hother, hrank⟩ :=
    Scan.findings_met_of_appended before hscan finding hfinding
  exact ⟨other.result, List.mem_map_of_mem hother, hrank⟩

end SnippetGrowth
