import Mathlib.Data.List.Forall2
import SnippetGrowth.Failure

/-!
# Steps that may fail

What a sequence of failing steps gives is read off its parts: a sequence
succeeds exactly when each of its steps does, and a traversal of a list fails
exactly when it fails at some element.
-/

namespace SnippetGrowth

variable {α β ε : Type}

theorem bind_eq_ok_iff {first : Except ε α} {next : α → Except ε β} {result : β} :
    first >>= next = .ok result ↔
      ∃ value, first = .ok value ∧ next value = .ok result := by
  cases first <;> simp [bind, Except.bind]

theorem bind_eq_error_iff {first : Except ε α} {next : α → Except ε β}
    {failure : ε} :
    first >>= next = .error failure ↔
      first = .error failure ∨ ∃ value, first = .ok value ∧
        next value = .error failure := by
  cases first <;> simp [bind, Except.bind]

theorem map_eq_ok_iff {outcome : Except ε α} {f : α → β} {result : β} :
    outcome.map f = .ok result ↔
      ∃ value, outcome = .ok value ∧ f value = result := by
  cases outcome <;> simp [Except.map]

theorem map_eq_error_iff {outcome : Except ε α} {f : α → β} {failure : ε} :
    outcome.map f = .error failure ↔ outcome = .error failure := by
  cases outcome <;> simp [Except.map]

theorem mapM_eq_ok_iff {f : α → Except ε β} {items : List α} {results : List β} :
    items.mapM f = .ok results ↔
      List.Forall₂ (fun item result => f item = .ok result)
      items results := by
  induction items generalizing results with
  | nil => cases results <;> simp [pure, Except.pure]
  | cons item items ih =>
      rw [List.mapM_cons, bind_eq_ok_iff]
      cases results with
      | nil => simp [bind_eq_ok_iff, pure, Except.pure]
      | cons result results =>
          simp only [List.forall₂_cons, ← ih, bind_eq_ok_iff]
          constructor
          · rintro ⟨first, hfirst, rest, hrest, heq⟩
            cases heq
            exact ⟨hfirst, hrest⟩
          · rintro ⟨hfirst, hrest⟩
            exact ⟨result, hfirst, results, hrest, rfl⟩

theorem mapM_congr {f g : α → Except ε β} {items : List α}
    (h : ∀ item ∈ items, f item = g item) :
    items.mapM f = items.mapM g := by
  induction items with
  | nil => rfl
  | cons item items ih =>
      rw [List.mapM_cons, List.mapM_cons, h item List.mem_cons_self,
        ih fun other hother => h other (List.mem_cons_of_mem item hother)]

theorem map_mapM {γ : Type} (f : α → Except ε β) (view : β → γ) (items : List α) :
    (items.mapM f).map (List.map view) = items.mapM fun item =>
      (f item).map view := by
  induction items with
  | nil => rfl
  | cons item items ih =>
      rw [List.mapM_cons, List.mapM_cons, ← ih]
      cases f item with
      | error failure => rfl
      | ok first => cases items.mapM f <;> rfl

theorem map_of_mapM_eq_ok {γ : Type} {f : α → Except ε β} {items : List α}
    {results : List β} (returned : items.mapM f = .ok results) {view : β → γ}
    {expected : α → γ}
    (step : ∀ item ∈ items, ∀ result, f item = .ok result →
    view result = expected item) :
    results.map view = items.map expected := by
  have paired := mapM_eq_ok_iff.1 returned
  clear returned
  induction paired with
  | nil => rfl
  | @cons item result items results first _ ih =>
      have htail := ih fun other hother =>
        step other (List.mem_cons_of_mem item hother)
      rw [List.map_cons, List.map_cons, htail,
        step item List.mem_cons_self result first]

theorem exists_result_of_mapM_eq_ok {f : α → Except ε β} {items : List α}
    {results : List β} (returned : items.mapM f = .ok results) {item : α}
    (hitem : item ∈ items) :
    ∃ result ∈ results, f item = .ok result := by
  have paired := mapM_eq_ok_iff.1 returned
  clear returned
  induction paired with
  | nil => simp at hitem
  | @cons first result items results hfirst _ ih =>
      rcases List.mem_cons.1 hitem with rfl | hrest
      · exact ⟨result, List.mem_cons_self, hfirst⟩
      · obtain ⟨other, hother, hstep⟩ := ih hrest
        exact ⟨other, List.mem_cons_of_mem result hother, hstep⟩

theorem exists_getLast?_of_mapM_eq_ok {f : α → Except ε β} {items : List α}
    {results : List β} (returned : items.mapM f = .ok results) {item : α}
    (hlast : items.getLast? = some item) :
    ∃ result, results.getLast? = some result ∧ f item = .ok result := by
  have reversed := List.forall₂_reverse_iff.2 (mapM_eq_ok_iff.1 returned)
  obtain ⟨others, hothers⟩ :=
    List.head?_eq_some_iff.1 (List.head?_reverse.trans hlast)
  rw [hothers] at reversed
  obtain ⟨result, results', hstep, -, hresults⟩ :=
    List.forall₂_cons_left_iff.1 reversed
  exact ⟨result,
    List.head?_reverse.symm.trans (by rw [hresults, List.head?_cons]), hstep⟩

theorem exists_item_of_mapM_eq_ok {f : α → Except ε β} {items : List α}
    {results : List β} (returned : items.mapM f = .ok results) {result : β}
    (hresult : result ∈ results) :
    ∃ item ∈ items, f item = .ok result := by
  have paired := mapM_eq_ok_iff.1 returned
  clear returned
  induction paired with
  | nil => simp at hresult
  | @cons item first items results hfirst _ ih =>
      rcases List.mem_cons.1 hresult with rfl | hrest
      · exact ⟨item, List.mem_cons_self, hfirst⟩
      · obtain ⟨other, hother, hstep⟩ := ih hrest
        exact ⟨other, List.mem_cons_of_mem item hother, hstep⟩

theorem exists_of_mapM_eq_error {f : α → Except ε β} {items : List α}
    {failure : ε} (failed : items.mapM f = .error failure) :
    ∃ item ∈ items, f item = .error failure := by
  induction items with
  | nil => simp [pure, Except.pure] at failed
  | cons item items ih =>
      rw [List.mapM_cons, bind_eq_error_iff] at failed
      rcases failed with hfirst | ⟨value, -, hrest⟩
      · exact ⟨item, List.mem_cons_self, hfirst⟩
      · rcases bind_eq_error_iff.1 hrest with hrest | ⟨values, -, hpure⟩
        · obtain ⟨other, hother, herror⟩ := ih hrest
          exact ⟨other, List.mem_cons_of_mem item hother, herror⟩
        · simp [pure, Except.pure] at hpure

theorem mapM_eq_of_forall₂ {γ : Type} {r : α → γ → Prop} {items : List α}
    {others : List γ} (h : List.Forall₂ r items others) {f : α → Except ε β}
    {g : γ → Except ε β} (step : ∀ item other, r item other → f item = g other) :
    items.mapM f = others.mapM g := by
  induction h with
  | nil => rfl
  | cons first _ ih => rw [List.mapM_cons, List.mapM_cons, step _ _ first, ih]

private theorem flatten_mapM_cons (f : α → Except ε (List β)) (item : α)
    (items : List α) :
    ((item :: items).mapM f).map List.flatten =
      (f item).bind fun shown =>
        ((items.mapM f).map List.flatten).map (shown ++ ·) := by
  rw [List.mapM_cons]
  cases f item with
  | error failure => rfl
  | ok shown => cases items.mapM f <;> rfl

theorem flatten_mapM_filter {f : α → Except ε (List β)} {p : α → Bool}
    (h : ∀ item, p item = false → f item = .ok []) (items : List α) :
    ((items.filter p).mapM f).map List.flatten =
      (items.mapM f).map List.flatten := by
  induction items with
  | nil => rfl
  | cons item items ih =>
      cases hitem : p item with
      | true =>
          rw [List.filter_cons_of_pos hitem, flatten_mapM_cons,
          flatten_mapM_cons, ih]
      | false =>
          rw [List.filter_cons_of_neg (by simp [hitem]), ih, flatten_mapM_cons,
            h item hitem]
          cases items.mapM f <;> rfl

theorem mapM_fails_iff {f : α → Except ε β} {items : List α} :
    (∃ failure, items.mapM f = .error failure) ↔
      ∃ item ∈ items, ∃ failure, f item = .error failure := by
  constructor
  · rintro ⟨failure, failed⟩
    obtain ⟨item, hitem, herror⟩ := exists_of_mapM_eq_error failed
    exact ⟨item, hitem, failure, herror⟩
  · rintro ⟨item, hitem, failure, herror⟩
    cases outcome : items.mapM f with
    | error first => exact ⟨first, rfl⟩
    | ok results =>
        obtain ⟨result, -, hresult⟩ := exists_result_of_mapM_eq_ok outcome hitem
        rw [herror] at hresult
        contradiction

end SnippetGrowth
