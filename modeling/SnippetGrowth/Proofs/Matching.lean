import Mathlib.Data.List.TakeDrop
import Mathlib.Data.List.TakeWhile
import SnippetGrowth.Proofs.Characters
import SnippetGrowth.Scan.Matches

/-!
# What the recognisers find

Whatever a search through a text collects was found by its recogniser at some
position.  A text in parentheses is cut out without a loss: what was passed
over and what follows make up the text.
-/

namespace SnippetGrowth.Scan

open Text

variable {α : Type} {recognise : Recogniser α}

/-! ## Collected finds -/

private theorem of_mem_matchesFrom {previous : Option Char} {skip : Nat}
    {text : List Char} {found : α}
    (h : found ∈ matchesFrom recognise previous skip text) :
    ∃ before position after, recognise before position = some (found, after) := by
  fun_induction matchesFrom recognise previous skip text with
  | case1 => simp at h
  | case2 _ _ _ _ ih => exact ih h
  | case3 previous c rest first after hfirst ih =>
      rcases List.mem_cons.1 h with rfl | h
      · exact ⟨previous, c :: rest, after, hfirst⟩
      · exact ih h
  | case4 _ _ _ _ ih => exact ih h

theorem of_mem_allMatches {text : List Char} {found : α}
    (h : found ∈ allMatches recognise text) :
    ∃ before position after, recognise before position = some (found, after) :=
  of_mem_matchesFrom h

/-! ## The search from find to find -/

/-- Whether a recogniser never finds anything at a line end, and leaves a later
part of the text behind at least one character. -/
structure IsAnchored (recognise : Recogniser α) : Prop where
  solid : ∀ {previous : Option Char} {c : Char} {rest after : List Char}
    {found : α},
    recognise previous (c :: rest) = some (found, after) → isLineEnd c = false
  suffix : ∀ {previous : Option Char} {c : Char} {rest after : List Char}
    {found : α},
    recognise previous (c :: rest) = some (found, after) → after <:+ rest

theorem getLast?_cons_or (c : Char) (front : List Char) (previous : Option Char) :
    (c :: front).getLast?.or previous = front.getLast?.or (some c) := by
  rw [List.getLast?_cons]
  cases front.getLast? <;> rfl

private theorem matchesFrom_append (previous : Option Char)
    (front rest : List Char) :
    matchesFrom recognise previous front.length (front ++ rest) =
      matchesFrom recognise (front.getLast?.or previous) 0 rest := by
  induction front generalizing previous with
  | nil => rfl
  | cons c front ih =>
      rw [getLast?_cons_or]
      exact ih (some c)

theorem matchesFrom_found {previous : Option Char} {c : Char}
    {front rest : List Char} {found : α}
    (h : recognise previous (c :: (front ++ rest)) = some (found, rest)) :
    matchesFrom recognise previous 0 (c :: (front ++ rest)) =
      found :: matchesFrom recognise (c :: front).getLast? 0 rest := by
  have hskip : (front ++ rest).length - rest.length = front.length := by simp
  rw [matchesFrom, h]
  simp only [hskip, matchesFrom_append, ← getLast?_cons_or c front none,
    Option.or_none]

theorem matchesFrom_missed {previous : Option Char} {c : Char} {rest : List Char}
    (h : recognise previous (c :: rest) = none) :
    matchesFrom recognise previous 0 (c :: rest) =
      matchesFrom recognise (some c) 0 rest := by
  rw [matchesFrom, h]

theorem matchesFrom_append_of_missed {front rest : List Char}
    (h : ∀ c later, c :: later <:+ front → ∀ previous,
      recognise previous (c :: (later ++ rest)) = none) (previous : Option Char) :
    matchesFrom recognise previous 0 (front ++ rest) =
      matchesFrom recognise (front.getLast?.or previous) 0 rest := by
  induction front generalizing previous with
  | nil => rfl
  | cons c front ih =>
      rw [List.cons_append,
        matchesFrom_missed (h c front List.suffix_rfl previous), getLast?_cons_or]
      exact ih (fun d later hlater =>
        h d later (hlater.trans (List.suffix_cons c front))) (some c)

theorem matchesFrom_lineEnds (anchored : IsAnchored recognise) {ends : List Char}
    (hends : ∀ c ∈ ends, isLineEnd c = true) (previous : Option Char)
    (rest : List Char) :
    matchesFrom recognise previous 0 (ends ++ rest) =
      matchesFrom recognise (ends.getLast?.or previous) 0 rest := by
  refine matchesFrom_append_of_missed (fun c later hlater previous => ?_) previous
  rw [Option.eq_none_iff_forall_ne_some]
  rintro ⟨found, after⟩ h
  have hsolid := anchored.solid h
  rw [hends c (hlater.subset List.mem_cons_self)] at hsolid
  contradiction

theorem firstMatchFrom?_eq_head? (previous : Option Char) (text : List Char) :
    firstMatchFrom? recognise previous text =
      (matchesFrom recognise previous 0 text).head? := by
  induction text generalizing previous with
  | nil => rfl
  | cons c rest ih =>
      rw [firstMatchFrom?, matchesFrom]
      split
      · rfl
      · exact ih (some c)

theorem firstMatch?_eq_head? (text : List Char) :
    firstMatch? recognise text = (allMatches recognise text).head? :=
  firstMatchFrom?_eq_head? none text

/-! ## Runs and parentheses -/

theorem span_eq_of_inside {inClass : Char → Bool} {run rest : List Char}
    (h : ∀ c ∈ run, inClass c = true)
    (hrest : ∀ c ∈ rest.head?, inClass c = false) :
    (run ++ rest).span inClass = (run, rest) := by
  have htake : rest.takeWhile inClass = [] := by
    cases rest with
    | nil => rfl
    | cons c rest => simp [hrest c rfl]
  have hdrop : rest.dropWhile inClass = rest := by
    cases rest with
    | nil => rfl
    | cons c rest => simp [hrest c rfl]
  rw [List.span_eq_takeWhile_dropWhile, List.takeWhile_append_of_pos h,
    List.dropWhile_append_of_pos h, htake, hdrop, List.append_nil]

theorem run?_eq_of_inside {inClass : Char → Bool} {run rest : List Char}
    (hnonempty : run ≠ []) (h : ∀ c ∈ run, inClass c = true)
    (hrest : ∀ c ∈ rest.head?, inClass c = false) :
    run? inClass (run ++ rest) = some (run, rest) := by
  rw [run?, span_eq_of_inside h hrest]
  cases run with
  | nil => exact absurd rfl hnonempty
  | cons => rfl

theorem run?_eq (inClass : Char → Bool) (text : List Char) :
    run? inClass text = if text.takeWhile inClass = [] then none
      else some (text.takeWhile inClass, text.dropWhile inClass) := by
  unfold run?
  rw [List.span_eq_takeWhile_dropWhile]
  cases text.takeWhile inClass with
  | nil => rfl
  | cons => rfl

theorem of_run?_eq_some {inClass : Char → Bool} {text run rest : List Char}
    (h : run? inClass text = some (run, rest)) :
    run ≠ [] ∧ (∀ c ∈ run, inClass c = true) ∧ text = run ++ rest := by
  rw [run?_eq] at h
  split at h
  · contradiction
  · next hempty =>
      obtain ⟨rfl, rfl⟩ := Prod.mk.inj (Option.some.inj h)
      refine ⟨hempty, ?_, List.takeWhile_append_dropWhile.symm⟩
      intro c hc
      exact List.mem_takeWhile_imp hc

theorem run?_concat {inClass : Char → Bool} {c : Char} (h : inClass c = false)
    (text : List Char) :
    run? inClass (text ++ [c]) =
      (run? inClass text).map fun found => (found.1, found.2 ++ [c]) := by
  have hspan : (text ++ [c]).span inClass =
      ((text.span inClass).1, (text.span inClass).2 ++ [c]) := by
    simp only [List.span_eq_takeWhile_dropWhile]
    induction text with
    | nil => simp [h]
    | cons d text ih =>
        cases hd : inClass d with
        | true => simpa [hd] using ih
        | false => simp [hd]
  unfold run?
  rw [hspan]
  rcases text.span inClass with ⟨run, rest⟩
  cases run <;> rfl

theorem dropBlanks?_eq (text : List Char) :
    dropBlanks? text = if text.head?.any isBlank then some (dropBlanks text)
      else none := by
  cases text with
  | nil => rfl
  | cons c rest =>
      by_cases h : isBlank c = true
      · simp [dropBlanks?, dropBlanks, h]
      · simp [dropBlanks?, h]

theorem closed?_eq_some_iff {text inside rest : List Char} :
    closed? text = some (inside, rest) ↔
      text = inside ++ ')' :: rest ∧ ')' ∉ inside := by
  constructor
  · intro h
    have hsplit := List.takeWhile_append_dropWhile (p := (· != ')')) (l := text)
    unfold closed? at h
    rw [List.span_eq_takeWhile_dropWhile] at h
    split at h
    · contradiction
    · next before c after heq =>
        obtain ⟨rfl, rfl⟩ := Prod.mk.inj (Option.some.inj h)
        obtain ⟨hbefore, hafter⟩ := Prod.mk.inj heq
        have hclosing : c = ')' := by
          have hhead := List.head?_dropWhile_not (· != ')') text
          rw [hafter] at hhead
          simpa using hhead
        refine ⟨by rw [← hsplit, hbefore, hafter, hclosing], fun hmem => ?_⟩
        rw [← hbefore] at hmem
        exact absurd (List.mem_takeWhile_imp hmem) (by decide)
  · rintro ⟨rfl, hinside⟩
    have hspan : (inside ++ ')' :: rest).span (· != ')') =
        (inside, ')' :: rest) := by
      refine span_eq_of_inside (fun c hc => ?_) (by simp)
      simpa using ne_of_mem_of_not_mem hc hinside
    rw [closed?, hspan]

theorem dropBlanks_eq_self {text : List Char}
    (h : ∀ c ∈ text.head?, isBlank c = false) :
    dropBlanks text = text := by
  cases text with
  | nil => rfl
  | cons c text => exact List.dropWhile_cons_of_neg (by simp [h c rfl])

section

variable {blanks : List Char} (h : ∀ c ∈ blanks, isBlank c = true)

include h

theorem dropBlanks_append_of_forall (text : List Char) :
    dropBlanks (blanks ++ text) = dropBlanks text :=
  List.dropWhile_append_of_pos h

variable {rest : List Char} (hrest : ∀ c ∈ rest.head?, isBlank c = false)

include hrest

theorem dropBlanks_append : dropBlanks (blanks ++ rest) = rest := by
  rw [dropBlanks_append_of_forall h, dropBlanks_eq_self hrest]

theorem dropBlanks?_append (hne : blanks ≠ []) :
    dropBlanks? (blanks ++ rest) = some rest := by
  have hfirst : (blanks ++ rest).head?.any isBlank = true := by
    obtain ⟨c, blanks, rfl⟩ := List.exists_cons_of_ne_nil hne
    exact h c List.mem_cons_self
  rw [dropBlanks?_eq, if_pos hfirst, dropBlanks_append h hrest]

end

theorem dropBlanks?_eq_some {text rest : List Char}
    (h : dropBlanks? text = some rest) :
    ∃ blanks, blanks ≠ [] ∧ (∀ c ∈ blanks, isBlank c = true) ∧
      text = blanks ++ rest := by
  rw [dropBlanks?_eq] at h
  split at h
  · next hfirst =>
      obtain rfl := Option.some.inj h
      refine ⟨text.takeWhile isBlank, ?_, fun c => List.mem_takeWhile_imp,
        List.takeWhile_append_dropWhile.symm⟩
      cases text with
      | nil => simp at hfirst
      | cons c text =>
          rw [List.takeWhile_cons_of_pos (by simpa using hfirst)]
          simp
  · contradiction

theorem parenthesized?_eq_some_iff {text inside rest : List Char} :
    parenthesized? text = some (inside, rest) ↔
      ∃ blanks, (∀ c ∈ blanks, isBlank c = true) ∧ ')' ∉ inside ∧
        text = blanks ++ '(' :: (inside ++ ')' :: rest) := by
  constructor
  · intro h
    obtain ⟨opened, hopened, hclosed⟩ := Option.bind_eq_some_iff.1 h
    obtain ⟨hrest, hinside⟩ := closed?_eq_some_iff.1 hclosed
    refine ⟨text.takeWhile isBlank, fun c => List.mem_takeWhile_imp, hinside, ?_⟩
    rw [← hrest, ← List.singleton_append, ← after?_eq_some_iff.1 hopened]
    exact List.takeWhile_append_dropWhile.symm
  · rintro ⟨blanks, hblanks, hinside, rfl⟩
    rw [parenthesized?, dropBlanks_append hblanks (by rintro _ ⟨⟩; decide)]
    exact closed?_eq_some_iff.2 ⟨rfl, hinside⟩

theorem dropBlanks?_isSuffix {text rest : List Char}
    (h : dropBlanks? text = some rest) :
    rest <:+ text := by
  rw [dropBlanks?_eq] at h
  split at h
  · cases h
    exact List.dropWhile_suffix isBlank
  · contradiction

theorem run?_isSuffix {inClass : Char → Bool} {text run rest : List Char}
    (h : run? inClass text = some (run, rest)) : rest <:+ text :=
  ⟨run, (of_run?_eq_some h).2.2.symm⟩

theorem parenthesized?_isSuffix {text inside rest : List Char}
    (h : parenthesized? text = some (inside, rest)) : rest <:+ text := by
  obtain ⟨blanks, -, -, rfl⟩ := parenthesized?_eq_some_iff.1 h
  exact ⟨blanks ++ '(' :: (inside ++ [')']), by simp⟩

theorem passed_append (front rest : List Char) :
    passed (front ++ rest) rest = front := by
  simp [passed]

end SnippetGrowth.Scan
