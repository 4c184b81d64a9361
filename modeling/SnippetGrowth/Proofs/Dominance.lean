import SnippetGrowth.Bound

/-!
# Dominance

The class of a text is the most dominant one whose marker stands in it.
Combining bounds gives one of them, or the constant bound if there are none,
and none of them is more dominant than the result.
-/

namespace SnippetGrowth

/-! ## The class of a text -/

theorem exists_find?_le {α : Type} {measure : α → Nat} (test : α → Bool)
    {items : List α}
    (sorted : items.Pairwise fun first second => measure first ≤ measure second)
    {item : α} (hitem : item ∈ items) (passes : test item = true) :
    ∃ found, items.find? test = some found ∧ measure found ≤ measure item := by
  induction items with
  | nil => simp at hitem
  | cons first items ih =>
      rw [List.pairwise_cons] at sorted
      rw [List.find?_cons]
      cases hfirst : test first with
      | true =>
          refine ⟨first, rfl, ?_⟩
          rcases List.mem_cons.1 hitem with rfl | hrest
          · exact Nat.le_refl _
          · exact sorted.1 item hrest
      | false =>
          rcases List.mem_cons.1 hitem with rfl | hrest
          · rw [passes] at hfirst
            contradiction
          · exact ih sorted.2 hrest

theorem GrowthClass.rank_ofText_le {growth : GrowthClass} {marker text : String}
    (hmarker : (growth, marker) ∈ markers)
    (occurs : Text.occursIn marker.toList text.toList = true) :
    (ofText text).rank ≤ growth.rank := by
  have sorted : markers.Pairwise fun first second =>
    first.1.rank ≤ second.1.rank := by decide
  obtain ⟨found, hfound, hle⟩ := exists_find?_le
    (fun entry => Text.occursIn entry.2.toList text.toList) sorted hmarker occurs
  rw [ofText, hfound]
  exact hle

theorem GrowthClass.ofText_eq_unranked_or_marked (text : String) :
    ofText text = unranked ∨
    ∃ entry ∈ markers, ofText text = entry.1 ∧
      Text.occursIn entry.2.toList text.toList = true := by
  unfold ofText
  cases hfound : markers.find? fun entry =>
    Text.occursIn entry.2.toList text.toList with
  | none => exact .inl rfl
  | some entry =>
      have occurs := List.find?_some hfound
      exact .inr ⟨entry, List.mem_of_find?_eq_some hfound, rfl,
        by simpa using occurs⟩

namespace Bound

/-! ## The most dominant bound -/

private theorem dominant_eq (a b : Bound) :
    dominant a b = a ∨ dominant a b = b := by
  unfold dominant
  split
  · exact .inr rfl
  · exact .inl rfl

theorem foldl_dominant_mem (first : Bound) (rest : List Bound) :
    rest.foldl dominant first ∈ first :: rest := by
  induction rest generalizing first with
  | nil => simp
  | cons next rest ih =>
      rw [List.foldl_cons]
      rcases dominant_eq first next with h | h <;> rw [h]
      · rcases List.mem_cons.1 (ih first) with heq | hmem
        · rw [heq]
          exact List.mem_cons_self
        · exact List.mem_cons_of_mem _ (List.mem_cons_of_mem _ hmem)
      · exact List.mem_cons_of_mem _ (ih next)

theorem combine_eq_constant_or_mem (bounds : List Bound) :
    combine bounds = constant ∨ combine bounds ∈ bounds := by
  cases bounds with
  | nil => exact .inl rfl
  | cons first rest => exact .inr (foldl_dominant_mem first rest)

private theorem rank_dominant_le (a b : Bound) :
    (dominant a b).rank ≤ a.rank ∧ (dominant a b).rank ≤ b.rank := by
  unfold dominant
  split <;> omega

private theorem rank_foldl_dominant_le (first : Bound) (rest : List Bound) :
    ∀ b ∈ first :: rest, (rest.foldl dominant first).rank ≤ b.rank := by
  induction rest generalizing first with
  | nil => simp
  | cons next rest ih =>
      have hpair := rank_dominant_le first next
      have hfirst := ih (dominant first next) _ List.mem_cons_self
      intro b hb
      simp only [List.mem_cons] at hb
      rw [List.foldl_cons]
      rcases hb with rfl | rfl | hb
      · exact Nat.le_trans hfirst hpair.1
      · exact Nat.le_trans hfirst hpair.2
      · exact ih _ b (List.mem_cons_of_mem _ hb)

theorem rank_combine_le {bounds : List Bound} {b : Bound} (h : b ∈ bounds) :
    (combine bounds).rank ≤ b.rank := by
  cases bounds with
  | nil => simp at h
  | cons first rest => exact rank_foldl_dominant_le first rest b h

/-- Bounds that are met by others at least as dominant combine to one that is
met as well. -/
theorem rank_combine_le_of_met {bounds others : List Bound}
    (met : ∀ b ∈ bounds, ∃ other ∈ others, other.rank ≤ b.rank)
    (below : (combine others).rank ≤ constant.rank) :
    (combine others).rank ≤ (combine bounds).rank := by
  rcases combine_eq_constant_or_mem bounds with heq | hmem
  · rwa [heq]
  · obtain ⟨other, hother, hrank⟩ := met _ hmem
    exact Nat.le_trans (rank_combine_le hother) hrank

end Bound

end SnippetGrowth
