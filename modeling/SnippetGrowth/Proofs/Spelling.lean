import SnippetGrowth.Proofs.Characters
import SnippetGrowth.Proofs.Matching

/-!
# Texts spelled anew

Two texts may differ in nothing but the spelling of their line ends and the
case of their letters.  A spelling says what each line end and each letter
becomes.  Every reader of this library commutes with it: reading the text
spelled anew gives what reading the text gives, spelled anew.
-/

namespace SnippetGrowth

open Text Scan

structure Spelling where
  lineEnd : List Char
  letter : Char → Char
  lineEnd_ne_nil : lineEnd ≠ []
  isLineEnd_of_mem : ∀ c ∈ lineEnd, isLineEnd c = true
  letter_eq_or : ∀ c, letter c = c ∨ c.isUpper = true ∧ (letter c).isAlpha = true
  fold_letter : ∀ c, fold (letter c) = fold c

namespace Spelling

variable (s : Spelling)

def spell (c : Char) : List Char := if c = '\n' then s.lineEnd else [s.letter c]

def respell (text : List Char) : List Char := text.flatMap s.spell

def reversed : Spelling where
  lineEnd := s.lineEnd.reverse
  letter := s.letter
  lineEnd_ne_nil := by simpa using s.lineEnd_ne_nil
  isLineEnd_of_mem := fun c hc => s.isLineEnd_of_mem c (List.mem_reverse.1 hc)
  letter_eq_or := s.letter_eq_or
  fold_letter := s.fold_letter

theorem reversed_reversed : s.reversed.reversed = s := by
  cases s
  simp [reversed]

/-! ## Characters -/

theorem spell_newline : s.spell '\n' = s.lineEnd := rfl

theorem spell_of_ne {c : Char} (h : c ≠ '\n') :
    s.spell c = [s.letter c] := if_neg h

@[simp] theorem respell_nil : s.respell [] = [] := rfl

theorem respell_cons (c : Char) (text : List Char) :
    s.respell (c :: text) = s.spell c ++ s.respell text := rfl

theorem respell_cons_of_ne {c : Char} (h : c ≠ '\n') (text : List Char) :
    s.respell (c :: text) = s.letter c :: s.respell text := by
  rw [respell_cons, spell_of_ne s h, List.singleton_append]

@[simp] theorem respell_append (front rest : List Char) :
    s.respell (front ++ rest) = s.respell front ++ s.respell rest :=
  List.flatMap_append

theorem spell_ne_nil (c : Char) : s.spell c ≠ [] := by
  unfold spell
  split
  · exact s.lineEnd_ne_nil
  · simp

theorem respell_eq_nil_iff {text : List Char} :
    s.respell text = [] ↔ text = [] := by
  cases text with
  | nil => simp
  | cons c text => simp [respell_cons, spell_ne_nil]

theorem reverse_respell (text : List Char) :
    (s.respell text).reverse = s.reversed.respell text.reverse := by
  induction text with
  | nil => rfl
  | cons c text ih =>
      have hspell : (s.spell c).reverse = s.reversed.spell c := by
        unfold spell reversed
        split <;> rfl
      rw [respell_cons, List.reverse_append, ih, List.reverse_cons,
        respell_append, hspell, respell_cons, respell_nil, List.append_nil]

theorem exists_spell_eq (c : Char) :
    ∃ d ends, s.spell c = d :: ends ∧ ∀ e ∈ ends, isLineEnd e = true := by
  obtain ⟨d, ends, hspell⟩ := List.exists_cons_of_ne_nil (s.spell_ne_nil c)
  refine ⟨d, ends, hspell, fun e he => ?_⟩
  by_cases hc : c = '\n'
  · subst hc
    rw [spell_newline] at hspell
    exact s.isLineEnd_of_mem e (by simp [hspell, he])
  · rw [spell_of_ne s hc] at hspell
    cases hspell
    simp at he

theorem class_of_mem_spell {inClass : Char → Bool} (h : IsUniform inClass)
    {c d : Char} (hd : d ∈ s.spell c) : inClass d = inClass c := by
  by_cases hc : c = '\n'
  · subst hc
    rcases isLineEnd_iff.1 (s.isLineEnd_of_mem d hd) with rfl | rfl
    · exact h.lineEnds
    · rfl
  · rw [spell_of_ne s hc, List.mem_singleton] at hd
    subst hd
    rcases s.letter_eq_or c with heq | ⟨hfrom, hto⟩
    · rw [heq]
    · rw [h.letters _ hto, h.letters _ (isAlpha_of_isUpper hfrom)]

theorem isLineEnd_letter {c : Char} (h : isLineEnd c = false) :
    isLineEnd (s.letter c) = false := by
  rcases s.letter_eq_or c with heq | ⟨-, hto⟩
  · rwa [heq]
  · rw [Bool.eq_false_iff]
    intro hend
    rcases isLineEnd_iff.1 hend with heq | heq <;> rw [heq] at hto <;>
      exact absurd hto (by decide)

/-- Whether a mark is spelled as itself and nothing else is spelled as it. -/
structure Keeps (mark : Char) : Prop where
  letter_eq_iff : ∀ c, s.letter c = mark ↔ c = mark
  solid : isLineEnd mark = false

theorem keeps_sign {mark : Char} (hletter : mark.isAlpha = false := by decide)
    (hend : isLineEnd mark = false := by decide) : s.Keeps mark where
  solid := hend
  letter_eq_iff := by
    intro c
    rcases s.letter_eq_or c with heq | ⟨hfrom, hto⟩
    · rw [heq]
    · refine iff_of_false ?_ ?_
      · rintro rfl
        rw [hto] at hletter
        contradiction
      · rintro rfl
        rw [isAlpha_of_isUpper hfrom] at hletter
        contradiction

def IsSigns (text : List Char) : Prop :=
  ∀ c ∈ text, c.isAlpha = false ∧ isLineEnd c = false

instance (text : List Char) : Decidable (IsSigns text) :=
  decidable_of_iff (text.all fun c => !c.isAlpha && !isLineEnd c)
    (by simp [IsSigns])

theorem keeps_signs {marker : List Char} (h : IsSigns marker) :
    ∀ mark ∈ marker, s.Keeps mark :=
  fun mark hmark => s.keeps_sign (h mark hmark).1 (h mark hmark).2

def IsExact : Prop := ∀ c, s.letter c = c

theorem IsExact.keeps {s : Spelling} (exact : s.IsExact) {mark : Char}
    (hend : isLineEnd mark = false) : s.Keeps mark where
  solid := hend
  letter_eq_iff := fun c => by rw [exact c]

theorem IsExact.keeps_all {s : Spelling} (exact : s.IsExact) {marker : List Char}
    (h : IsSolid marker) : ∀ mark ∈ marker, s.Keeps mark :=
  fun mark hmark => exact.keeps (h mark hmark)

theorem Keeps.ne_newline {s : Spelling} {mark : Char} (h : s.Keeps mark) :
    mark ≠ '\n' := by
  rintro rfl
  exact absurd h.solid (by decide)

theorem Keeps.letter_eq {s : Spelling} {mark : Char} (h : s.Keeps mark) :
    s.letter mark = mark :=
  (h.letter_eq_iff mark).2 rfl

theorem Keeps.mem_spell_iff {s : Spelling} {mark c : Char} (h : s.Keeps mark) :
    mark ∈ s.spell c ↔ c = mark := by
  by_cases hc : c = '\n'
  · subst hc
    refine iff_of_false ?_ h.ne_newline.symm
    intro hmem
    have hend := h.solid
    rw [s.isLineEnd_of_mem mark hmem] at hend
    contradiction
  · rw [spell_of_ne s hc, List.mem_singleton, eq_comm, h.letter_eq_iff]

def IsPlain (text : List Char) : Prop :=
  ∀ c ∈ text, c.isUpper = false ∧ isLineEnd c = false

instance (text : List Char) : Decidable (IsPlain text) :=
  decidable_of_iff (text.all fun c => !c.isUpper && !isLineEnd c)
    (by simp [IsPlain])

theorem IsPlain.isSolid {text : List Char} (h : IsPlain text) : IsSolid text :=
  fun c hc => (h c hc).2

theorem respell_eq_self {text : List Char} (h : ∀ c ∈ text, s.spell c = [c]) :
    s.respell text = text := by
  induction text with
  | nil => rfl
  | cons c text ih =>
      rw [respell_cons, h c List.mem_cons_self, ih fun d hd =>
        h d (List.mem_cons_of_mem c hd), List.singleton_append]

theorem respell_of_isPlain {text : List Char} (h : IsPlain text) :
    s.respell text = text := by
  apply respell_eq_self
  intro c hc
  obtain ⟨hupper, hend⟩ := h c hc
  have hne : c ≠ '\n' := by
    rintro rfl
    exact absurd hend (by decide)
  rw [spell_of_ne s hne]
  rcases s.letter_eq_or c with heq | ⟨hfrom, -⟩
  · rw [heq]
  · rw [hupper] at hfrom
    contradiction

theorem IsExact.respell_eq_self {s : Spelling} (exact : s.IsExact)
    {text : List Char} (h : IsSolid text) : s.respell text = text := by
  apply Spelling.respell_eq_self
  intro c hc
  rw [spell_of_ne s (exact.keeps (h c hc)).ne_newline, exact c]

theorem isPlain_of_class {inClass : Char → Bool} (h : IsUniform inClass)
    (hletter : inClass 'a' = false) (hend : inClass '\n' = false)
    {text : List Char} (htext : ∀ c ∈ text, inClass c = true) : IsPlain text := by
  intro c hc
  have hclass := htext c hc
  constructor
  · rw [Bool.eq_false_iff]
    intro hupper
    rw [h.letters c (isAlpha_of_isUpper hupper), hletter] at hclass
    contradiction
  · rw [Bool.eq_false_iff, Ne, isLineEnd_iff]
    rintro (rfl | rfl)
    · rw [h.lineEnds, hend] at hclass
      contradiction
    · rw [hend] at hclass
      contradiction

/-! ## Runs -/

theorem takeWhile_respell {inClass : Char → Bool} (h : IsUniform inClass)
    (text : List Char) :
    (s.respell text).takeWhile inClass = s.respell (text.takeWhile inClass) := by
  induction text with
  | nil => rfl
  | cons c text ih =>
      rw [respell_cons]
      cases hc : inClass c with
      | true =>
          have hall : ∀ d ∈ s.spell c, inClass d = true := fun d hd =>
            (s.class_of_mem_spell h hd).trans hc
          rw [List.takeWhile_append_of_pos hall, ih,
            List.takeWhile_cons_of_pos hc, respell_cons]
      | false =>
          obtain ⟨d, more, hspell⟩ :=
            List.exists_cons_of_ne_nil (s.spell_ne_nil c)
          have hd : inClass d = false :=
            (s.class_of_mem_spell h (by simp [hspell])).trans hc
          rw [hspell, List.cons_append, List.takeWhile_cons_of_neg (by simp [hd]),
            List.takeWhile_cons_of_neg (by simp [hc]), respell_nil]

theorem dropWhile_respell {inClass : Char → Bool} (h : IsUniform inClass)
    (text : List Char) :
    (s.respell text).dropWhile inClass = s.respell (text.dropWhile inClass) := by
  have hboth : (s.respell text).takeWhile inClass ++
      (s.respell text).dropWhile inClass =
      s.respell (text.takeWhile inClass) ++
          s.respell (text.dropWhile inClass) := by
    rw [List.takeWhile_append_dropWhile, ← respell_append,
      List.takeWhile_append_dropWhile]
  rw [takeWhile_respell s h] at hboth
  exact List.append_cancel_left hboth

theorem span_respell {inClass : Char → Bool} (h : IsUniform inClass)
    (text : List Char) :
    (s.respell text).span inClass =
      (s.respell (text.span inClass).1, s.respell (text.span inClass).2) := by
  simp only [List.span_eq_takeWhile_dropWhile, takeWhile_respell s h,
    dropWhile_respell s h]

theorem head?_any_respell {inClass : Char → Bool} (h : IsUniform inClass)
    (text : List Char) :
    (s.respell text).head?.any inClass = text.head?.any inClass := by
  cases text with
  | nil => rfl
  | cons c text =>
      obtain ⟨d, more, hspell⟩ := List.exists_cons_of_ne_nil (s.spell_ne_nil c)
      rw [respell_cons, hspell]
      exact s.class_of_mem_spell h (by simp [hspell])

theorem getLast?_any_respell {inClass : Char → Bool} (h : IsUniform inClass)
    (text : List Char) :
    (s.respell text).getLast?.any inClass = text.getLast?.any inClass := by
  rw [← List.head?_reverse, ← List.head?_reverse, reverse_respell]
  exact s.reversed.head?_any_respell h text.reverse

theorem dropBlanks_respell (text : List Char) :
    dropBlanks (s.respell text) = s.respell (dropBlanks text) :=
  dropWhile_respell s isUniform_isBlank text

theorem dropBlanks?_respell (text : List Char) :
    dropBlanks? (s.respell text) = (dropBlanks? text).map s.respell := by
  rw [dropBlanks?_eq, dropBlanks?_eq, head?_any_respell s isUniform_isBlank,
    dropBlanks_respell]
  split <;> rfl

theorem strip_respell (text : List Char) :
    strip (s.respell text) = s.respell (strip text) := by
  rw [strip, dropBlanks_respell, reverse_respell, dropBlanks_respell,
    reverse_respell, reversed_reversed, strip]

theorem run?_respell {inClass : Char → Bool} (h : IsUniform inClass)
    (text : List Char) :
    run? inClass (s.respell text) =
      (run? inClass text).map (Prod.map s.respell s.respell) := by
  simp only [run?_eq, takeWhile_respell s h, dropWhile_respell s h,
    respell_eq_nil_iff]
  split <;> rfl

/-! ## Marks and markers -/

theorem after?_respell (marker : List Char) (h : ∀ mark ∈ marker, s.Keeps mark)
    (text : List Char) :
    after? marker (s.respell text) = (after? marker text).map s.respell := by
  induction marker generalizing text with
  | nil => rfl
  | cons mark marker ih =>
      have hmark := h mark List.mem_cons_self
      have hrest := ih fun d hd => h d (List.mem_cons_of_mem mark hd)
      cases text with
      | nil => rfl
      | cons c text =>
          by_cases hc : c = mark
          · subst hc
            rw [respell_cons_of_ne s hmark.ne_newline, hmark.letter_eq]
            simp only [after?, if_true, hrest]
          · obtain ⟨d, more, hspell⟩ :=
              List.exists_cons_of_ne_nil (s.spell_ne_nil c)
            have hd : mark ≠ d := by
              rintro rfl
              exact hc (hmark.mem_spell_iff.1 (by simp [hspell]))
            rw [respell_cons, hspell, List.cons_append]
            simp only [after?, hd, Ne.symm hc, if_false, Option.map_none]

private theorem sameLetter_letter (a b : Char) :
    sameLetter (s.letter a) (s.letter b) = sameLetter a b := by
  rw [Bool.eq_iff_iff, sameLetter_iff, sameLetter_iff, s.fold_letter,
    s.fold_letter]

private theorem sameLetter_eq_false_of_isLineEnd {a b : Char}
    (ha : isLineEnd a = false) (hb : isLineEnd b = true) :
    sameLetter a b = false := by
  rw [Bool.eq_false_iff]
  intro h
  rw [isLineEnd_eq_of_sameLetter h, hb] at ha
  contradiction

theorem afterAnyCase?_respell {marker : List Char} (h : IsSolid marker)
    (text : List Char) :
    afterAnyCase? (s.respell marker) (s.respell text) =
      (afterAnyCase? marker text).map s.respell := by
  induction marker generalizing text with
  | nil => rfl
  | cons mark marker ih =>
      have hmark := h mark List.mem_cons_self
      have hne : mark ≠ '\n' := by
        rintro rfl
        exact absurd hmark (by decide)
      have hrest := ih fun d hd => h d (List.mem_cons_of_mem mark hd)
      rw [respell_cons_of_ne s hne]
      cases text with
      | nil => rfl
      | cons c text =>
          by_cases hc : c = '\n'
          · subst hc
            obtain ⟨d, more, hspell⟩ :=
              List.exists_cons_of_ne_nil s.lineEnd_ne_nil
            have hd := sameLetter_eq_false_of_isLineEnd (s.isLineEnd_letter hmark)
              (s.isLineEnd_of_mem d (by simp [hspell]))
            have hnewline := sameLetter_eq_false_of_isLineEnd hmark
              (b := '\n') (by decide)
            rw [respell_cons, spell_newline, hspell, List.cons_append]
            simp only [afterAnyCase?, hd, hnewline, Bool.false_eq_true,
              if_false, Option.map_none]
          · rw [respell_cons_of_ne s hc]
            simp only [afterAnyCase?, sameLetter_letter, hrest]
            split <;> rfl

theorem contains_respell {mark : Char} (h : s.Keeps mark) (text : List Char) :
    (s.respell text).contains mark = text.contains mark := by
  rw [Bool.eq_iff_iff, List.contains_iff_mem, List.contains_iff_mem, respell,
    List.mem_flatMap]
  constructor
  · rintro ⟨c, hc, hmem⟩
    rwa [← h.mem_spell_iff.1 hmem]
  · intro hmem
    exact ⟨mark, hmem, h.mem_spell_iff.2 rfl⟩

theorem split_append_of_not_mem {mark : Char} {front : List Char}
    (h : mark ∉ front) {text piece : List Char} {pieces : List (List Char)}
    (htext : split mark text = piece :: pieces) :
    split mark (front ++ text) = (front ++ piece) :: pieces := by
  induction front with
  | nil => exact htext
  | cons c front ih =>
      rw [List.mem_cons, not_or] at h
      simp only [List.cons_append, split, if_neg (Ne.symm h.1), ih h.2]

theorem split_respell {mark : Char} (h : s.Keeps mark) (text : List Char) :
    split mark (s.respell text) = (split mark text).map s.respell := by
  induction text with
  | nil => rfl
  | cons c text ih =>
      by_cases hc : c = mark
      · subst hc
        rw [respell_cons_of_ne s h.ne_newline, h.letter_eq]
        simp only [split, if_true, List.map_cons, respell_nil, ih]
      · obtain ⟨piece, pieces, hsplit⟩ :=
          List.exists_cons_of_ne_nil (split_ne_nil mark text)
        have habsent : mark ∉ s.spell c := fun hmem => hc (h.mem_spell_iff.1 hmem)
        rw [hsplit, List.map_cons] at ih
        rw [respell_cons, split_append_of_not_mem habsent ih]
        simp only [split, if_neg hc, hsplit, List.map_cons, respell_cons]

theorem occursIn_respell {marker : List Char} (hmarker : marker ≠ [])
    (h : ∀ mark ∈ marker, s.Keeps mark) (text : List Char) :
    occursIn marker (s.respell text) = occursIn marker text := by
  obtain ⟨mark, marker, rfl⟩ := List.exists_cons_of_ne_nil hmarker
  have hmark := h mark List.mem_cons_self
  induction text with
  | nil => rfl
  | cons c text ih =>
      by_cases hc : c = mark
      · subst hc
        have hprefix : (after? (c :: marker) (s.respell (c :: text))).isSome =
            (after? (c :: marker) (c :: text)).isSome := by
          rw [after?_respell s _ h, Option.isSome_map]
        rw [respell_cons_of_ne s hmark.ne_newline] at hprefix ⊢
        rw [occursIn, occursIn, ih, isPrefixOf_eq, isPrefixOf_eq, hprefix]
      · have habsent : mark ∉ s.spell c := fun hmem =>
          hc (hmark.mem_spell_iff.1 hmem)
        have hother : mark ∉ [c] := by simpa using Ne.symm hc
        rw [respell_cons, occursIn_append_of_not_mem habsent, ih]
        exact (occursIn_append_of_not_mem hother text).symm

/-! ## Sequences of readers -/

/-- If a first reader commutes with the views of what it reads, and so does the
next one behind whatever the first one gives, then their sequence does. -/
theorem bind_eq_map_bind {α α' β β' : Type} {first : Option α}
    {respelled : Option α'} {view : α → α'} {next : α → Option β}
    {next' : α' → Option β'} {see : β → β'} (hfirst : respelled = first.map view)
    (hnext : ∀ value, first = some value →
      next' (view value) = (next value).map see) :
    respelled.bind next' = (first.bind next).map see := by
  subst hfirst
  cases first with
  | none => rfl
  | some value => exact hnext value rfl

/-! ## Parentheses -/

theorem isUniform_ne_closing :
    IsUniform (· != ')') := isUniform_ne (by decide) (by decide)

private theorem closed?_respell (text : List Char) :
    closed? (s.respell text) =
      (closed? text).map (Prod.map s.respell s.respell) := by
  unfold closed?
  rw [span_respell s isUniform_ne_closing, List.span_eq_takeWhile_dropWhile]
  have hhead := List.head?_dropWhile_not (· != ')') text
  cases hrest : text.dropWhile (· != ')') with
  | nil => rfl
  | cons c rest =>
      have hclosing : c = ')' := by simpa [hrest] using hhead
      subst hclosing
      rw [respell_cons_of_ne s (by decide)]
      rfl

theorem parenthesized?_respell (text : List Char) :
    parenthesized? (s.respell text) =
      (parenthesized? text).map (Prod.map s.respell s.respell) := by
  have hopening := s.after?_respell ['('] (s.keeps_signs (by decide))
  refine bind_eq_map_bind ?_ fun rest _ => s.closed?_respell rest
  rw [dropBlanks_respell, hopening]

theorem passed_respell {text rest : List Char} (h : rest <:+ text) :
    passed (s.respell text) (s.respell rest) = s.respell (passed text rest) := by
  obtain ⟨front, rfl⟩ := h
  rw [respell_append, passed_append, passed_append]

end Spelling

end SnippetGrowth
