import Mathlib.Data.Finset.Card
import SnippetGrowth.Proofs.Matching

/-!
# Searches from left to right

A search reports finds with their places.  It sweeps over the text: it takes
the leftmost find that starts at its place or later, goes on where that find
stops, and so misses the finds that start inside another one, and no others.
-/

namespace SnippetGrowth.Scan

/-! ## Sweeps -/

variable {α : Type} {finds : Nat → α → Nat → Prop}

/-- What a sweep takes from a place on, given which finds start and stop where. -/
inductive Sweeps (finds : Nat → α → Nat → Prop) : Nat → List α → Prop
  | done {place : Nat}
    (h : ∀ start found stop, finds start found stop → start < place) :
      Sweeps finds place []
  | take {place start stop : Nat} {found : α} {others : List α}
      (ahead : place ≤ start)
      (here : finds start found stop)
      (leftmost : ∀ other otherFound otherStop, finds other otherFound otherStop →
        place ≤ other → start ≤ other)
      (onward : Sweeps finds stop others) : Sweeps finds place (found :: others)

structure IsAdvancing (finds : Nat → α → Nat → Prop) : Prop where
  unique : ∀ {start stop otherStop : Nat} {found other : α},
    finds start found stop →
    finds start other otherStop → found = other ∧ stop = otherStop
  lt_stop : ∀ {start stop : Nat} {found : α}, finds start found stop →
    start < stop

/-- Whether something is found at the first place where a find starts. -/
def Leftmost (finds : Nat → α → Nat → Prop) (found : α) : Prop :=
  ∃ start stop, finds start found stop ∧
    ∀ other otherFound otherStop, finds other otherFound otherStop → start ≤ other

theorem Leftmost.eq (advancing : IsAdvancing finds) {found other : α}
    (h : Leftmost finds found) (hother : Leftmost finds other) :
    found = other := by
  obtain ⟨start, stop, here, hfirst⟩ := h
  obtain ⟨otherStart, otherStop, there, hotherFirst⟩ := hother
  cases Nat.le_antisymm (hfirst _ _ _ there) (hotherFirst _ _ _ here)
  exact (advancing.unique here there).1

theorem Sweeps.of_succ {place : Nat} {founds : List α}
    (hnone : ∀ found stop, ¬ finds place found stop)
    (h : Sweeps finds (place + 1) founds) :
    Sweeps finds place founds := by
  have hnext : ∀ start found stop, finds start found stop → place ≤ start →
      place + 1 ≤ start := by
    intro start found stop hfinds hle
    rcases Nat.eq_or_lt_of_le hle with rfl | hlt
    · exact absurd hfinds (hnone found stop)
    · exact hlt
  cases h with
  | done h =>
      refine .done fun start found stop hfinds => ?_
      have hlt := h start found stop hfinds
      have hstart := hnext start found stop hfinds
      omega
  | take ahead here leftmost onward =>
      refine .take (by omega) here (fun other found stop hfinds hle => ?_) onward
      exact leftmost other found stop hfinds (hnext other found stop hfinds hle)

theorem Sweeps.eq (advancing : IsAdvancing finds) {place : Nat}
    {founds others : List α} (h : Sweeps finds place founds)
    (hothers : Sweeps finds place others) : founds = others := by
  induction h generalizing others with
  | done h =>
      cases hothers with
      | done => rfl
      | take ahead here => exact absurd (h _ _ _ here) (Nat.not_lt.2 ahead)
  | take ahead here leftmost onward ih =>
      cases hothers with
      | done h => exact absurd (h _ _ _ here) (Nat.not_lt.2 ahead)
      | take otherAhead there otherLeftmost otherOnward =>
          cases Nat.le_antisymm (leftmost _ _ _ there otherAhead)
            (otherLeftmost _ _ _ here ahead)
          obtain ⟨rfl, rfl⟩ := advancing.unique here there
          rw [ih otherOnward]

/-! ## Counting what a sweep takes -/

section Counting

variable {starts : Finset Nat}
  (hstarts : ∀ start, start ∈ starts ↔ ∃ found stop, finds start found stop)

include hstarts

theorem insert_filter_subset {place start stop : Nat} {found : α}
    (ahead : place ≤ start) (here : finds start found stop) (hlt : start < stop) :
    insert start (starts.filter (stop ≤ ·)) ⊆ starts.filter (place ≤ ·) := by
  intro other hother
  rw [Finset.mem_filter]
  rcases Finset.mem_insert.1 hother with rfl | hmem
  · exact ⟨(hstarts _).2 ⟨_, _, here⟩, ahead⟩
  · obtain ⟨hstart, hle⟩ := Finset.mem_filter.1 hmem
    exact ⟨hstart, by omega⟩

omit hstarts in
theorem card_insert_filter {start stop : Nat} (hlt : start < stop) :
    (insert start (starts.filter (stop ≤ ·))).card =
      (starts.filter (stop ≤ ·)).card + 1 := by
  apply Finset.card_insert_of_notMem
  rw [Finset.mem_filter]
  omega

theorem Sweeps.length_le_card (advancing : IsAdvancing finds) {place : Nat}
    {founds : List α} (h : Sweeps finds place founds) :
    founds.length ≤ (starts.filter (place ≤ ·)).card := by
  induction h with
  | done => exact Nat.zero_le _
  | take ahead here leftmost onward ih =>
      have hlt := advancing.lt_stop here
      have hsubset :=
        Finset.card_le_card (insert_filter_subset hstarts ahead here hlt)
      rw [card_insert_filter hlt] at hsubset
      rw [List.length_cons]
      omega

private theorem filter_eq_insert_iff {place start stop : Nat} {found : α}
    (ahead : place ≤ start) (here : finds start found stop) (hlt : start < stop)
    (leftmost : ∀ other otherFound otherStop, finds other otherFound otherStop →
      place ≤ other → start ≤ other) :
    insert start (starts.filter (stop ≤ ·)) = starts.filter (place ≤ ·) ↔
      ∀ other ∈ starts, start < other → stop ≤ other := by
  constructor
  · intro hall other hother hafter
    have hmem : other ∈ insert start (starts.filter (stop ≤ ·)) := by
      rw [hall]
      exact Finset.mem_filter.2 ⟨hother, by omega⟩
    rcases Finset.mem_insert.1 hmem with rfl | hmem
    · omega
    · exact (Finset.mem_filter.1 hmem).2
  · intro hapart
    refine (insert_filter_subset hstarts ahead here hlt).antisymm
      fun other hother => ?_
    obtain ⟨hmem, hle⟩ := Finset.mem_filter.1 hother
    obtain ⟨otherFound, otherStop, hother⟩ := (hstarts other).1 hmem
    rcases Nat.eq_or_lt_of_le (leftmost _ _ _ hother hle) with rfl | hafter
    · exact Finset.mem_insert_self _ _
    · exact Finset.mem_insert_of_mem
        (Finset.mem_filter.2 ⟨hmem, hapart other hmem hafter⟩)

/-- A sweep takes as many finds as there are exactly if no find starts inside
another one. -/
theorem Sweeps.length_eq_card_iff (advancing : IsAdvancing finds) {place : Nat}
    {founds : List α} (h : Sweeps finds place founds) :
    founds.length = (starts.filter (place ≤ ·)).card ↔
      ∀ start found stop, finds start found stop → place ≤ start →
        ∀ other ∈ starts, start < other → stop ≤ other := by
  induction h with
  | @done place h =>
      have hnone : starts.filter (place ≤ ·) = ∅ := by
        refine Finset.filter_eq_empty_iff.2 fun start hstart hle => ?_
        obtain ⟨found, stop, hfinds⟩ := (hstarts start).1 hstart
        exact absurd (h _ _ _ hfinds) (Nat.not_lt.2 hle)
      rw [hnone]
      refine iff_of_true rfl fun start found stop hfinds hle => ?_
      exact absurd (h _ _ _ hfinds) (Nat.not_lt.2 hle)
  | take ahead here leftmost onward ih =>
      have hlt := advancing.lt_stop here
      have hsubset := insert_filter_subset hstarts ahead here hlt
      have hinside := filter_eq_insert_iff hstarts ahead here hlt leftmost
      rw [List.length_cons]
      constructor
      · intro hlength
        have hrest := onward.length_le_card hstarts advancing
        have hcard := Finset.card_le_card hsubset
        rw [card_insert_filter hlt] at hcard
        have hall := Finset.eq_of_subset_of_card_le hsubset (by
          rw [card_insert_filter hlt]
          omega)
        have hapart := hinside.1 hall
        have honward := ih.1 (by omega)
        intro first firstFound firstStop hfirst hle other hother hafter
        rcases Nat.eq_or_lt_of_le (leftmost _ _ _ hfirst hle) with rfl | hbehind
        · obtain ⟨-, rfl⟩ := advancing.unique here hfirst
          exact hapart other hother hafter
        · have hstop := hapart first ((hstarts first).2 ⟨_, _, hfirst⟩) hbehind
          exact honward _ _ _ hfirst hstop other hother hafter
      · intro hapart
        have honward := ih.2 fun first firstFound firstStop hfirst hle =>
          hapart _ _ _ hfirst (by omega)
        rw [← hinside.2 (hapart _ _ _ here ahead), card_insert_filter hlt,
          honward]

end Counting

/-! ## Finds in a text -/

/-- Whether a recogniser finds something at a place of a text, and stops at
another place. -/
def FoundAt (recognise : Recogniser α) (text : List Char) (start : Nat)
    (found : α) (stop : Nat) : Prop :=
  ∃ before rest after, text = before ++ rest ∧ before.length = start ∧ rest ≠ [] ∧
    recognise before.getLast? rest = some (found, after) ∧
    stop + after.length = text.length

variable {recognise : Recogniser α}

theorem isAdvancing_foundAt (anchored : IsAnchored recognise) (text : List Char) :
    IsAdvancing (FoundAt recognise text) where
  unique := by
    rintro start stop otherStop found other ⟨before, rest, after, rfl, rfl, -,
      hfound, hstop⟩
      ⟨otherBefore, otherRest, otherAfter, htext, hlength, -, hother, hotherStop⟩
    obtain ⟨rfl, rfl⟩ := List.append_inj htext hlength.symm
    rw [hfound] at hother
    cases hother
    exact ⟨rfl, by omega⟩
  lt_stop := by
    rintro start stop found ⟨before, rest, after, rfl, rfl, hne, hfound, hstop⟩
    obtain ⟨c, rest, rfl⟩ := List.exists_cons_of_ne_nil hne
    have hlength := (anchored.suffix hfound).length_le
    simp only [List.length_append, List.length_cons] at hstop
    omega

private theorem sweeps_matchesFrom (anchored : IsAnchored recognise)
    (before rest : List Char) {skip : Nat} (hskip : skip ≤ rest.length) :
    Sweeps (FoundAt recognise (before ++ rest)) (before.length + skip)
      (matchesFrom recognise before.getLast? skip rest) := by
  induction rest generalizing before skip with
  | nil =>
      refine .done ?_
      rintro start found stop ⟨front, rest, after, htext, rfl, hne, -⟩
      have hlength := congrArg List.length htext
      have hpos := List.length_pos_of_ne_nil hne
      simp only [List.length_append, List.length_nil] at hlength
      omega
  | cons c rest ih =>
      have hnext : ∀ {skip}, skip ≤ rest.length →
          Sweeps (FoundAt recognise (before ++ c :: rest))
            (before.length + 1 + skip)
            (matchesFrom recognise (some c) skip rest) := by
        intro skip hskip
        simpa using ih (before ++ [c]) hskip
      cases skip with
      | succ skip =>
          have honward := hnext (Nat.le_of_succ_le_succ hskip)
          rwa [Nat.add_assoc, Nat.add_comm 1 skip] at honward
      | zero =>
          have hplace : ∀ found stop,
              FoundAt recognise (before ++ c :: rest) before.length found
              stop → ∃ after,
                  recognise before.getLast? (c :: rest) =
                    some (found, after) := by
            rintro found stop ⟨front, rest', after, htext, hlength, -, hfound, -⟩
            obtain ⟨rfl, rfl⟩ := List.append_inj htext hlength.symm
            exact ⟨after, hfound⟩
          cases hrecognise : recognise before.getLast? (c :: rest) with
          | none =>
              rw [matchesFrom_missed hrecognise]
              refine .of_succ
                (fun found stop hfound => ?_) (hnext (Nat.zero_le _))
              obtain ⟨after, hafter⟩ := hplace found stop hfound
              rw [hrecognise] at hafter
              contradiction
          | some first =>
              rcases first with ⟨found, after⟩
              have hlength := (anchored.suffix hrecognise).length_le
              have honward := hnext (Nat.sub_le rest.length after.length)
              rw [matchesFrom, hrecognise]
              refine .take (Nat.le_refl _) ⟨before, c :: rest, after, rfl, rfl,
                by simp, hrecognise, ?_⟩ (fun _ _ _ _ hle => hle) honward
              simp only [List.length_append, List.length_cons]
              omega

theorem sweeps_allMatches (anchored : IsAnchored recognise) (text : List Char) :
    Sweeps (FoundAt recognise text) 0 (allMatches recognise text) :=
  sweeps_matchesFrom anchored [] text (Nat.zero_le _)

theorem firstMatch?_eq_none_iff (anchored : IsAnchored recognise)
    {text : List Char} :
    firstMatch? recognise text = none ↔
      ∀ start found stop, ¬ FoundAt recognise text start found stop := by
  have sweep := sweeps_allMatches anchored text
  rw [firstMatch?_eq_head?]
  cases hmatches : allMatches recognise text with
  | nil =>
      rw [hmatches] at sweep
      cases sweep with
      | done h =>
          exact iff_of_true rfl fun start found stop hfound =>
            absurd (h start found stop hfound) (Nat.not_lt_zero start)
  | cons first others =>
      rw [hmatches] at sweep
      cases sweep with
      | take ahead here => exact iff_of_false (by simp) fun h => h _ _ _ here

theorem allMatches_ne_nil_iff (anchored : IsAnchored recognise)
    {text : List Char} :
    allMatches recognise text ≠ [] ↔
      ∃ start found stop, FoundAt recognise text start found stop := by
  rw [Ne, ← List.head?_eq_none_iff, ← firstMatch?_eq_head?,
    firstMatch?_eq_none_iff anchored]
  simp only [not_forall, not_not]

theorem firstMatch?_eq_some_iff (anchored : IsAnchored recognise)
    {text : List Char} {found : α} :
    firstMatch? recognise text = some found ↔
      Leftmost (FoundAt recognise text) found := by
  have hleftmost : ∀ first, firstMatch? recognise text = some first →
      Leftmost (FoundAt recognise text) first := by
    intro first hfirst
    have sweep := sweeps_allMatches anchored text
    rw [firstMatch?_eq_head?] at hfirst
    obtain ⟨others, hmatches⟩ := List.head?_eq_some_iff.1 hfirst
    rw [hmatches] at sweep
    cases sweep with
    | take ahead here leftmost =>
        exact ⟨_, _, here, fun other otherFound otherStop hother =>
          leftmost other otherFound otherStop hother (Nat.zero_le other)⟩
  refine ⟨hleftmost found, fun h => ?_⟩
  obtain ⟨start, stop, here, -⟩ := id h
  cases hfirst : firstMatch? recognise text with
  | none => exact absurd here ((firstMatch?_eq_none_iff anchored).1 hfirst _ _ _)
  | some first =>
      rw [(hleftmost first hfirst).eq (isAdvancing_foundAt anchored text) h]

theorem exists_starts (recognise : Recogniser α) (text : List Char) :
    ∃ starts : Finset Nat, ∀ start,
      start ∈ starts ↔ ∃ found stop, FoundAt recognise text start found stop := by
  classical
  refine ⟨(Finset.range text.length).filter fun start =>
    ∃ found stop, FoundAt recognise text start found stop, fun start => ?_⟩
  rw [Finset.mem_filter, Finset.mem_range, and_iff_right_iff_imp]
  rintro ⟨found, stop, before, rest, after, rfl, rfl, hne, -⟩
  have hpos := List.length_pos_of_ne_nil hne
  rw [List.length_append]
  omega

end SnippetGrowth.Scan
