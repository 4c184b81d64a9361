import SnippetGrowth.Proofs.Selection
import SnippetGrowth.Proofs.SyntaxFaults

/-!
# The class of a label in its notation

The class of a bound is read off the notation, but what stands around the label
there is no part of any marker, not even together with the ends of the label.
So the label decides, and since every logarithm holds an `n`, the marker of the
logarithm is never the first one.  Markers that stand in a label stand in every
text around it, so more text never makes a label less dominant.
-/

namespace SnippetGrowth

open Text

theorem find?_eq_some_iff_isFirst {α : Type} {test : α → Bool} {p : α → Prop}
    (h : ∀ item, test item = true ↔ p item) {items : List α} {first : α} :
    items.find? test = some first ↔ IsFirst p items first := by
  rw [List.find?_eq_some_iff_append, IsFirst, h]
  simp only [Bool.not_eq_true', ← Bool.not_eq_true, h]

namespace GrowthClass

/-! ## Deciding parts -/

/-- The parts of a label that decide its class, the most dominant one first. -/
def decidingParts : List (GrowthClass × String) :=
  [(factorial, "n!"), (cubic, "n³"), (quadratic, "n²"), (linearithmic, "n log n"),
    (linear, "n"), (constant, "1")]

def StandsIn (text : String) (entry : GrowthClass × String) : Prop :=
  entry.2.toList <:+: text.toList

/-- The class of a text is that of the first deciding part in it, and without
any it has no rank. -/
inductive Decides (text : String) : GrowthClass → Prop
  | part {growth : GrowthClass} {part : String}
      (h : IsFirst (StandsIn text) decidingParts (growth, part)) :
        Decides text growth
  | nothing (h : ∀ entry ∈ decidingParts, ¬ StandsIn text entry) :
      Decides text unranked

variable {text : String}

theorem occursIn_iff_standsIn {entry : GrowthClass × String} :
    occursIn entry.2.toList text.toList = true ↔ StandsIn text entry :=
  occursIn_iff

theorem find?_markers (text : String) :
    (markers.find? fun entry => occursIn entry.2.toList text.toList) =
      decidingParts.find? fun entry => occursIn entry.2.toList text.toList := by
  have hlinear : occursIn "log n".toList text.toList = true →
      occursIn "n".toList text.toList = true := occursIn_of_isInfix (by decide)
  simp only [markers, decidingParts, List.find?_cons]
  cases hn : occursIn "n".toList text.toList with
  | true => rfl
  | false =>
      cases hlogarithm : occursIn "log n".toList text.toList with
      | true =>
          rw [hlinear hlogarithm] at hn
          contradiction
      | false => rfl

private theorem decides_ofText (text : String) : Decides text (ofText text) := by
  rw [ofText_eq, find?_markers]
  cases hfound : decidingParts.find? fun entry =>
    occursIn entry.2.toList text.toList with
  | none =>
      refine .nothing fun entry hentry hstands => ?_
      exact List.find?_eq_none.1 hfound entry hentry
        (occursIn_iff_standsIn.2 hstands)
  | some entry =>
      exact .part
        ((find?_eq_some_iff_isFirst fun _ => occursIn_iff_standsIn).1 hfound)

private theorem Decides.eq_ofText {growth : GrowthClass}
    (h : Decides text growth) :
    ofText text = growth := by
  rw [ofText_eq, find?_markers]
  cases h with
  | part h =>
      rw [(find?_eq_some_iff_isFirst fun _ => occursIn_iff_standsIn).2 h]
      rfl
  | nothing h =>
      have hnone :
          (decidingParts.find? fun entry => occursIn entry.2.toList text.toList) =
            none :=
        List.find?_eq_none.2 fun entry hentry hoccurs =>
          h entry hentry (occursIn_iff_standsIn.1 hoccurs)
      rw [hnone]
      rfl

theorem ofText_eq_iff_decides {growth : GrowthClass} :
    ofText text = growth ↔ Decides text growth := by
  constructor
  · rintro rfl
    exact decides_ofText text
  · exact Decides.eq_ofText

theorem not_decides_logarithmic : ¬ Decides text logarithmic := by
  have hnone : ∀ entry ∈ decidingParts, entry.1 ≠ logarithmic := by decide
  intro h
  cases h with
  | part h =>
      obtain ⟨-, before, after, hsplit, -⟩ := h
      exact hnone _ (hsplit ▸ List.mem_append_right before List.mem_cons_self) rfl

private theorem ofText_eq_constant_iff :
    ofText text = constant ↔ '1' ∈ text.toList ∧ 'n' ∉ text.toList := by
  have hone : '1' ∈ text.toList → ofText text ≠ unranked := by
    intro hmem hunranked
    have hmarker : (constant, "1") ∈ markers := by decide
    have hrank := rank_ofText_le hmarker (occursIn_singleton_iff.2 hmem)
    simp [hunranked, rank] at hrank
  rw [← ofText_eq_constant_or_unranked_iff]
  constructor
  · intro h
    have honly : ∀ entry ∈ markers, entry.1 = constant → entry.2 = "1" := by
      decide
    rcases ofText_eq_unranked_or_marked text with
      hnone | ⟨entry, hentry, hclass, occurs⟩
    · rw [h] at hnone
      contradiction
    · rw [honly entry hentry (hclass.symm.trans h)] at occurs
      exact ⟨occursIn_singleton_iff.1 occurs, .inl h⟩
  · rintro ⟨hmem, hconstant | hunranked⟩
    · exact hconstant
    · exact absurd hunranked (hone hmem)

private theorem rank_ofText_le_of_isInfix {whole : String}
    (h : text.toList <:+: whole.toList) :
    (ofText whole).rank ≤ (ofText text).rank := by
  rcases ofText_eq_unranked_or_marked text with
    hnone | ⟨entry, hentry, hclass, occurs⟩
  · rw [hnone]
    cases ofText whole <;> decide
  · rw [hclass]
    exact rank_ofText_le hentry (occursIn_iff.2 ((occursIn_iff.1 occurs).trans h))

end GrowthClass

namespace Bound

/-! ## Labels in a notation -/

private theorem rank_ofLabel_append_le (front label back : String) :
    (ofLabel (front ++ label ++ back)).rank ≤ (ofLabel label).rank := by
  have hinside : label.toList <:+: (front ++ label ++ back).toList := by
    simp only [String.toList_append]
    exact List.infix_append _ _ _
  rw [rank, rank, growthClass_ofLabel, growthClass_ofLabel]
  exact GrowthClass.rank_ofText_le_of_isInfix hinside

end Bound

/--
A notation holds the markers of its label and no others.  The class of the
bound is that of the first deciding part in the label, so it is never
logarithmic, and it is constant exactly if the label holds a `1` and no `n`.
Text in front of a label or behind it never makes the bound less dominant.
-/
theorem growthClass_decided_by_label (front label back : String) :
    (∀ entry ∈ GrowthClass.markers,
      GrowthClass.StandsIn (Bound.ofLabel label).upperBound entry ↔
        GrowthClass.StandsIn label entry) ∧
    (∀ growth, (Bound.ofLabel label).growthClass = growth ↔
      GrowthClass.Decides label growth) ∧
    (Bound.ofLabel label).growthClass ≠ .logarithmic ∧
    ((Bound.ofLabel label).growthClass = .constant ↔ '1' ∈ label.toList ∧
      'n' ∉ label.toList) ∧
    (Bound.ofLabel (front ++ label ++ back)).rank ≤
      (Bound.ofLabel label).rank := by
  refine ⟨fun entry hentry => ?_, fun growth => ?_, fun hlogarithmic =>
    ?_, ?_, ?_⟩
  · rw [← GrowthClass.occursIn_iff_standsIn, ← GrowthClass.occursIn_iff_standsIn,
      Bound.occursIn_upperBound_ofLabel hentry]
  · rw [Bound.growthClass_ofLabel, GrowthClass.ofText_eq_iff_decides]
  · rw [Bound.growthClass_ofLabel,
      GrowthClass.ofText_eq_iff_decides] at hlogarithmic
    exact GrowthClass.not_decides_logarithmic hlogarithmic
  · rw [Bound.growthClass_ofLabel, GrowthClass.ofText_eq_constant_iff]
  · exact Bound.rank_ofLabel_append_le front label back

/-- The parenthesis behind an `n` is not taken for the `!` of a factorial, and
the logarithm is shadowed by its `n`; a factor in front makes the label more
dominant. -/
theorem growthClass_decided_by_label_shadowedLogarithm :
    (GrowthClass.factorial, "n!") ∈ GrowthClass.markers ∧
      ¬ GrowthClass.StandsIn (Bound.ofLabel "log n").upperBound
        (.factorial, "n!") ∧
      GrowthClass.Decides "log n" .linear ∧
      (Bound.ofLabel "n log n").rank ≤ (Bound.ofLabel "log n").rank := by
  have hmarker : (GrowthClass.factorial, "n!") ∈ GrowthClass.markers := by decide
  have habsent : ¬ GrowthClass.StandsIn "log n" (.factorial, "n!") := by
    rw [← GrowthClass.occursIn_iff_standsIn]
    decide
  have hlinear : (Bound.ofLabel "log n").growthClass = .linear := by decide
  obtain ⟨hstands, hdecides, -, -, hrank⟩ :=
    growthClass_decided_by_label "n " "log n" ""
  refine ⟨hmarker, ?_, (hdecides .linear).1 hlinear, hrank⟩
  rwa [hstands _ hmarker]

end SnippetGrowth
