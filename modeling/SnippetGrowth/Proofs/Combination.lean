import Mathlib.Data.List.TakeWhile
import SnippetGrowth.Proofs.Dominance

/-!
# Combining bounds

Of several bounds the first of the most dominant ones leads: those before it
are less dominant, and none behind it is more dominant.  A list has only one
leader, and combining bounds gives it.  The leader of two lists in a row is
the more dominant of their leaders, so bounds may be combined in parts.
-/

namespace SnippetGrowth.Bound

/-- Whether a bound is the first of the most dominant ones in a list. -/
def Leads (b : Bound) (bounds : List Bound) : Prop :=
  ∃ front back, bounds = front ++ b :: back ∧
    (∀ other ∈ front, b.rank < other.rank) ∧ ∀ other ∈ back, b.rank ≤ other.rank

namespace Leads

variable {a b : Bound} {bounds others : List Bound}

theorem singleton (b : Bound) : b.Leads [b] :=
  ⟨[], [], by simp⟩

theorem mem (h : b.Leads bounds) : b ∈ bounds := by
  obtain ⟨front, back, rfl, -, -⟩ := h
  simp

theorem rank_le (h : b.Leads bounds) : ∀ other ∈ bounds, b.rank ≤ other.rank := by
  obtain ⟨front, back, rfl, hfront, hback⟩ := h
  intro other hother
  simp only [List.mem_append, List.mem_cons] at hother
  rcases hother with hother | rfl | hother
  · exact Nat.le_of_lt (hfront other hother)
  · exact Nat.le_refl _
  · exact hback other hother

theorem rank_lt_of_mem_takeWhile (h : b.Leads bounds) :
    ∀ other ∈ bounds.takeWhile (· ≠ b), b.rank < other.rank := by
  obtain ⟨front, back, rfl, hfront, hback⟩ := h
  have hne : ∀ other ∈ front, decide (other ≠ b) = true := by
    intro other hother
    have hrank := hfront other hother
    simp only [decide_eq_true_eq]
    rintro rfl
    omega
  rw [List.takeWhile_append_of_pos hne, List.takeWhile_cons_of_neg (by simp),
    List.append_nil]
  exact hfront

theorem append (ha : a.Leads bounds) (hb : b.Leads others) :
    (dominant a b).Leads (bounds ++ others) := by
  have habove := ha.rank_le
  have hbelow := hb.rank_le
  obtain ⟨front, back, rfl, hfront, hback⟩ := ha
  obtain ⟨front', back', rfl, hfront', hback'⟩ := hb
  unfold dominant
  split
  · next hlt =>
      refine ⟨front ++ a :: back ++ front', back', by simp, ?_, hback'⟩
      intro other hother
      rcases List.mem_append.1 hother with hother | hother
      · exact Nat.lt_of_lt_of_le hlt (habove other hother)
      · exact hfront' other hother
  · next hle =>
      refine ⟨front, back ++ (front' ++ b :: back'), by simp, hfront, ?_⟩
      intro other hother
      rcases List.mem_append.1 hother with hother | hother
      · exact hback other hother
      · exact Nat.le_trans (Nat.not_lt.1 hle) (hbelow other hother)

theorem unique (ha : a.Leads bounds) (hb : b.Leads bounds) : a = b := by
  have hab := ha.rank_le b hb.mem
  have hba := hb.rank_le a ha.mem
  obtain ⟨front, back, rfl, hfront, -⟩ := ha
  obtain ⟨front', back', hbounds, hfront', -⟩ := hb
  rcases List.append_eq_append_iff.1 hbounds with
    ⟨more, rfl, hmore⟩ | ⟨more, rfl, hmore⟩
  · cases more with
    | nil => exact (List.cons.inj hmore).1
    | cons first more =>
        obtain ⟨rfl, -⟩ := List.cons.inj hmore
        have := hfront' a (by simp)
        omega
  · cases more with
    | nil => exact (List.cons.inj hmore).1.symm
    | cons first more =>
        obtain ⟨rfl, -⟩ := List.cons.inj hmore
        have := hfront b (by simp)
        omega

theorem foldl {first : Bound} {seen : List Bound} (h : first.Leads seen)
    (rest : List Bound) :
    (rest.foldl dominant first).Leads (seen ++ rest) := by
  induction rest generalizing first seen with
  | nil => simpa using h
  | cons next rest ih =>
      have hstep : (dominant first next).Leads (seen ++ [next]) :=
        h.append (singleton next)
      simpa using ih hstep

end Leads

theorem leads_combine {bounds : List Bound} (nonempty : bounds ≠ []) :
    (combine bounds).Leads bounds := by
  obtain ⟨first, rest, rfl⟩ := List.exists_cons_of_ne_nil nonempty
  exact (Leads.singleton first).foldl rest

theorem combine_map_of_head? {ι : Type} {items : List ι} {bound : ι → Bound}
    {first : ι} (hfirst : items.head? = some first)
    (h : ∀ item ∈ items, (bound first).rank ≤ (bound item).rank) :
    combine (items.map bound) = bound first := by
  obtain ⟨others, rfl⟩ := List.head?_eq_some_iff.1 hfirst
  refine (leads_combine (List.cons_ne_nil _ _)).unique
    ⟨[], others.map bound, rfl, by simp, ?_⟩
  intro other hother
  obtain ⟨item, hitem, rfl⟩ := List.mem_map.1 hother
  exact h item (List.mem_cons_of_mem first hitem)

private theorem combine_append {front back : List Bound} (hfront : front ≠ [])
    (hback : back ≠ []) :
    combine (front ++ back) = combine [combine front, combine back] := by
  have hwhole : (combine (front ++ back)).Leads (front ++ back) :=
    leads_combine (by simp [hfront])
  have hparts : (dominant (combine front) (combine back)).Leads (front ++ back) :=
    (leads_combine hfront).append (leads_combine hback)
  exact hwhole.unique hparts

private theorem rank_combine_eq_of_perm {bounds others : List Bound}
    (h : others.Perm bounds) :
    (combine others).rank = (combine bounds).rank := by
  by_cases hempty : bounds = []
  · subst hempty
    rw [h.eq_nil]
  · have hothers : others ≠ [] := mt (fun hnil => (hnil ▸ h).symm.eq_nil) hempty
    have hmem : combine bounds ∈ others := h.mem_iff.2 (leads_combine hempty).mem
    have hmem' : combine others ∈ bounds :=
      h.mem_iff.1 (leads_combine hothers).mem
    exact Nat.le_antisymm (rank_combine_le hmem) (rank_combine_le hmem')

/--
Combining bounds gives one of them, the first of least rank.  So the parts of
a list may be combined on their own, and the order of the bounds does not
matter for the rank.
-/
theorem combine_first_of_least_rank (bounds : List Bound)
    (nonempty : bounds ≠ []) :
    combine bounds ∈ bounds ∧
      (∀ b ∈ bounds, (combine bounds).rank ≤ b.rank) ∧
      (∀ b ∈ bounds.takeWhile (· ≠ combine bounds),
        (combine bounds).rank < b.rank) ∧
      (∀ front back, front ≠ [] → back ≠ [] → bounds = front ++ back →
        combine bounds = combine [combine front, combine back]) ∧
      ∀ others : List Bound, others.Perm bounds →
        (combine others).rank = (combine bounds).rank := by
  have leads := leads_combine nonempty
  refine ⟨leads.mem, leads.rank_le, leads.rank_lt_of_mem_takeWhile, ?_, ?_⟩
  · rintro front back hfront hback rfl
    exact combine_append hfront hback
  · intro others hperm
    exact rank_combine_eq_of_perm hperm

theorem combine_first_of_least_rank_logarithm :
    let bounds := [ofLabel "5", ofLabel "log n", ofLabel "n", ofLabel "7"]
    bounds ≠ [] ∧ combine bounds = ofLabel "log n" ∧
      bounds.takeWhile (· ≠ ofLabel "log n") = [ofLabel "5"] ∧
      (ofLabel "log n").rank < (ofLabel "5").rank := by
  intro bounds
  have nonempty : bounds ≠ [] := List.cons_ne_nil _ _
  have hlog : combine bounds = ofLabel "log n" := by decide
  have hbefore : bounds.takeWhile (· ≠ ofLabel "log n") = [ofLabel "5"] := by
    decide
  obtain ⟨-, -, hfirst, -⟩ := combine_first_of_least_rank bounds nonempty
  rw [hlog, hbefore] at hfirst
  exact ⟨nonempty, hlog, hbefore, hfirst _ List.mem_cons_self⟩

end SnippetGrowth.Bound
