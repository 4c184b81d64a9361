import SnippetGrowth.Proofs.Spelling

/-!
# Texts cut at a mark

A word without the mark stands in a text only if it stands in one of the
pieces between the marks.  A search that never reads past a mark finds in the
text what it finds in the pieces, one after the other.
-/

namespace SnippetGrowth.Scan

open Text

/-! ## Words in pieces -/

theorem isPrefix_of_append_cons {word : List Char} {mark : Char} (h : mark ∉ word)
    {front rest : List Char} (hstarts : word <+: front ++ mark :: rest) :
    word <+: front := by
  obtain ⟨behind, heq⟩ := hstarts
  rcases List.append_eq_append_iff.1 heq with
    ⟨inside, hfront, -⟩ | ⟨inside, hword, hrest⟩
  · exact ⟨inside, hfront.symm⟩
  · cases inside with
    | nil => exact ⟨[], by simpa using hword⟩
    | cons c inside =>
        obtain ⟨rfl, -⟩ := List.cons.inj hrest
        simp [hword] at h

theorem isInfix_append_cons_iff {marker : List Char} (hmarker : marker ≠ [])
    {mark : Char} (h : mark ∉ marker) (front rest : List Char) :
    marker <:+: front ++ mark :: rest ↔ marker <:+: front ∨ marker <:+: rest := by
  constructor
  · rintro ⟨before, after, heq⟩
    rw [List.append_assoc] at heq
    rcases List.append_eq_append_iff.1 heq with
      ⟨inside, hfront, hrest⟩ | ⟨inside, hbefore, hrest⟩
    · have hinside : marker <+: inside := isPrefix_of_append_cons h ⟨after, hrest⟩
      exact .inl (hinside.isInfix.trans ⟨before, [], by simp [hfront]⟩)
    · cases inside with
      | nil =>
          obtain ⟨m, marker, rfl⟩ := List.exists_cons_of_ne_nil hmarker
          obtain ⟨rfl, -⟩ := List.cons.inj hrest
          simp at h
      | cons c inside =>
          obtain ⟨-, rfl⟩ := List.cons.inj hrest
          exact .inr ⟨inside, after, by simp⟩
  · rintro (hfront | hrest)
    · exact hfront.trans ⟨[], mark :: rest, rfl⟩
    · exact hrest.trans ⟨front ++ [mark], [], by simp⟩

theorem occursIn_append_cons {marker : List Char} (hmarker : marker ≠ [])
    {mark : Char} (h : mark ∉ marker) (front rest : List Char) :
    occursIn marker (front ++ mark :: rest) =
      (occursIn marker front || occursIn marker rest) := by
  rw [Bool.eq_iff_iff, Bool.or_eq_true, occursIn_iff, occursIn_iff, occursIn_iff,
    isInfix_append_cons_iff hmarker h]

theorem split_of_not_mem {mark : Char} {text : List Char} (h : mark ∉ text) :
    split mark text = [text] := by
  have hnone : split mark [] = [[]] := rfl
  simpa using Spelling.split_append_of_not_mem h hnone

theorem split_append_cons {mark : Char} {front : List Char} (h : mark ∉ front)
    (rest : List Char) :
    split mark (front ++ mark :: rest) = front :: split mark rest := by
  rw [split_append_separator, split_of_not_mem h]
  rfl

theorem pieces_induction (mark : Char) {p : List Char → Prop}
    (last : ∀ text, mark ∉ text → p text)
    (cut : ∀ front rest, mark ∉ front → p rest → p (front ++ mark :: rest))
    (text : List Char) : p text := by
  suffices h : ∀ front, mark ∉ front →
      p (front ++ text) from h [] List.not_mem_nil
  induction text with
  | nil =>
      intro front hfront
      rw [List.append_nil]
      exact last front hfront
  | cons c text ih =>
      intro front hfront
      by_cases hc : c = mark
      · subst hc
        exact cut front text hfront (ih [] List.not_mem_nil)
      · rw [← List.singleton_append, ← List.append_assoc]
        exact ih (front ++ [c]) (by simp [hfront, Ne.symm hc])

theorem mark_not_mem_of_mem_split {mark : Char} {text piece : List Char}
    (h : piece ∈ split mark text) : mark ∉ piece := by
  induction text using pieces_induction mark with
  | last text htext =>
      rw [split_of_not_mem htext, List.mem_singleton] at h
      exact h ▸ htext
  | cut front rest hfront ih =>
      rw [split_append_cons hfront] at h
      rcases List.mem_cons.1 h with rfl | hmem
      · exact hfront
      · exact ih hmem

theorem isInfix_iff_exists_piece {word : List Char} (hword : word ≠ [])
    {mark : Char} (h : mark ∉ word) (text : List Char) :
    word <:+: text ↔ ∃ piece ∈ split mark text, word <:+: piece := by
  induction text using pieces_induction mark with
  | last text htext => simp [split_of_not_mem htext]
  | cut front rest hfront ih =>
      rw [isInfix_append_cons_iff hword h, split_append_cons hfront, ih]
      simp only [List.mem_cons, exists_eq_or_imp]

/-! ## Searches through pieces -/

variable {α : Type} {recognise : Recogniser α} {mark : Char}

theorem matchesFrom_eq_of_blind
    (blind : ∀ previous text, recognise previous text = recognise none text)
    (previous : Option Char) (skip : Nat) (text : List Char) :
    matchesFrom recognise previous skip text =
      matchesFrom recognise none skip text := by
  cases text with
  | nil => rw [matchesFrom, matchesFrom]
  | cons c rest =>
      cases skip with
      | succ skip => rfl
      | zero => rw [matchesFrom, matchesFrom, blind previous]

/-- Whether a recogniser looks at neither what stands in front of its place nor
what stands behind the next mark. -/
structure IsConfined (mark : Char) (recognise : Recogniser α) : Prop where
  blind : ∀ previous text, recognise previous text = recognise none text
  nothing : recognise none [] = none
  confined : ∀ {front : List Char}, mark ∉ front → ∀ rest,
    recognise none (front ++ mark :: rest) =
      (recognise none front).map fun (found, after) =>
        (found, after ++ mark :: rest)

namespace IsConfined

variable (h : IsConfined mark recognise)

include h

private theorem matchesFrom_append_cons {front : List Char}
    (hfront : mark ∉ front) {skip : Nat} (hskip : skip ≤ front.length)
    (rest : List Char) :
    matchesFrom recognise none skip (front ++ mark :: rest) =
      matchesFrom recognise none skip front ++ allMatches recognise rest := by
  induction front generalizing skip with
  | nil =>
      obtain rfl := Nat.le_zero.1 hskip
      have hmissed : recognise none (mark :: rest) = none := by
        simpa [h.nothing] using h.confined List.not_mem_nil rest
      rw [List.nil_append, matchesFrom_missed hmissed,
        matchesFrom_eq_of_blind h.blind]
      rfl
  | cons c front ih =>
      have hbehind : mark ∉ front :=
        fun hmem => hfront (List.mem_cons_of_mem c hmem)
      have hanew := matchesFrom_eq_of_blind h.blind (some c)
      cases skip with
      | succ skip =>
          rw [List.cons_append, matchesFrom, matchesFrom, hanew, hanew]
          exact ih hbehind (by simpa using hskip)
      | zero =>
          have hplace := h.confined hfront rest
          cases hfind : recognise none (c :: front) with
          | none =>
              rw [hfind, Option.map_none, List.cons_append] at hplace
              rw [List.cons_append, matchesFrom_missed hplace,
                matchesFrom_missed hfind, hanew, hanew]
              exact ih hbehind (Nat.zero_le _)
          | some find =>
              obtain ⟨found, after⟩ := find
              have hpassed :
                  (front ++ mark :: rest).length -
                    (after ++ mark :: rest).length =
                  front.length - after.length := by
                simp only [List.length_append]
                omega
              rw [hfind, Option.map_some, List.cons_append] at hplace
              rw [List.cons_append, matchesFrom, hplace, matchesFrom, hfind]
              dsimp only
              rw [hpassed, hanew, hanew, ih hbehind (Nat.sub_le _ _),
                List.cons_append]

/-- What is found in a text is what is found in its pieces. -/
theorem allMatches_eq_flatMap (text : List Char) :
    allMatches recognise text =
      (split mark text).flatMap (allMatches recognise) := by
  induction text using pieces_induction mark with
  | last text htext => simp [split_of_not_mem htext]
  | cut front rest hfront ih =>
      rw [split_append_cons hfront, List.flatMap_cons, ← ih]
      exact h.matchesFrom_append_cons hfront (Nat.zero_le _) rest

end IsConfined

end SnippetGrowth.Scan
