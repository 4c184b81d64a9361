import SnippetGrowth.Text.Blank
import SnippetGrowth.Text.Digit
import SnippetGrowth.Text.Fold
import SnippetGrowth.Text.Word

/-!
# Classes of characters

A fact about the basic Latin alphabet is decided character by character.
Folding keeps letters apart from all that stands before them in the code
table, so a line end is the same letter as nothing but itself.
-/

namespace SnippetGrowth

open Text

/-! ## The basic Latin alphabet -/

theorem of_forall_ascii {p : Char → Prop} (h : ∀ n < 128, p (Char.ofNat n))
    {c : Char} (hc : c.toNat < 128) : p c := by
  have hchar := h c.toNat hc
  rwa [Char.ofNat_toNat] at hchar

theorem isUpper_iff {c : Char} : c.isUpper = true ↔ 65 ≤ c.toNat ∧ c.toNat ≤ 90 :=
  Iff.trans decide_eq_true_iff
    (and_congr UInt32.le_iff_toNat_le UInt32.le_iff_toNat_le)

theorem isAlpha_of_isUpper {c : Char} (h : c.isUpper = true) : c.isAlpha = true :=
  Bool.or_eq_true_iff.2 (.inl h)

theorem toNat_lt_of_isAlpha {c : Char} (h : c.isAlpha = true) :
    c.toNat < 128 := by
  rcases Bool.or_eq_true_iff.1 h with hupper | hlower
  · exact Nat.lt_of_le_of_lt (isUpper_iff.1 hupper).2 (by decide)
  · have hlimit := of_decide_eq_true (Bool.and_eq_true_iff.1 hlower).2
    exact Nat.lt_of_le_of_lt (UInt32.le_iff_toNat_le.1 hlimit) (by decide)

theorem toLower_eq_of_not_isUpper {c : Char} (h : c.isUpper = false) :
    c.toLower = c :=
  dif_neg (of_decide_eq_false h)

theorem toLower_eq_of_le {c : Char} (h : 128 ≤ c.toNat) : c.toLower = c := by
  apply toLower_eq_of_not_isUpper
  rw [Bool.eq_false_iff, Ne, isUpper_iff]
  omega

theorem toLower_toLower (c : Char) : c.toLower.toLower = c.toLower := by
  by_cases hc : c.toNat < 128
  · have hall : ∀ n < 128,
        (Char.ofNat n).toLower.toLower = (Char.ofNat n).toLower := by
      decide +kernel
    exact of_forall_ascii (p := fun c => c.toLower.toLower = c.toLower) hall hc
  · rw [toLower_eq_of_le (Nat.not_lt.1 hc), toLower_eq_of_le (Nat.not_lt.1 hc)]

/-! ## Blanks -/

def blankCodes : List Nat :=
  List.range' 9 5 ++ List.range' 28 5 ++ List.range' 0x2000 11 ++
    [0x85, 0xA0, 0x1680, 0x2028, 0x2029, 0x202F, 0x205F, 0x3000]

theorem toNat_mem_blankCodes {c : Char} (h : isBlank c = true) :
    c.toNat ∈ blankCodes := by
  simp only [isBlank, Bool.or_eq_true, Bool.and_eq_true, decide_eq_true_eq,
    beq_iff_eq] at h
  simp only [blankCodes, List.mem_append, List.mem_range'_1, List.mem_cons,
    List.not_mem_nil, or_false]
  omega

theorem isWord_eq_false_of_isBlank {c : Char} (h : isBlank c = true) :
    isWord c = false := by
  have hall : ∀ n ∈ blankCodes, isWord (Char.ofNat n) = false := by decide +kernel
  simpa only [Char.ofNat_toNat] using hall c.toNat (toNat_mem_blankCodes h)

theorem isDigit_eq_false_of_isBlank {c : Char} (h : isBlank c = true) :
    isDigit c = false := by
  have hall : ∀ n ∈ blankCodes, isDigit (Char.ofNat n) = false := by
    decide +kernel
  simpa only [Char.ofNat_toNat] using hall c.toNat (toNat_mem_blankCodes h)

/-! ## Line ends -/

def isLineEnd (c : Char) : Bool := c == '\r' || c == '\n'

theorem isLineEnd_iff {c : Char} : isLineEnd c = true ↔ c = '\r' ∨ c = '\n' := by
  simp [isLineEnd]

theorem isLineEnd_eq_false_of_isWord {c : Char} (h : isWord c = true) :
    isLineEnd c = false := by
  rw [Bool.eq_false_iff, Ne, isLineEnd_iff]
  rintro (rfl | rfl)
  · exact absurd h (by decide)
  · exact absurd h (by decide)

def IsSolid (text : List Char) : Prop := ∀ c ∈ text, isLineEnd c = false

instance (text : List Char) : Decidable (IsSolid text) :=
  decidable_of_iff (text.all fun c => !isLineEnd c) (by simp [IsSolid])

/-- Whether a class holds of all letters of the basic Latin alphabet or of none,
and of both characters of line ends or of none. -/
structure IsUniform (inClass : Char → Bool) : Prop where
  letters : ∀ c : Char, c.isAlpha = true → inClass c = inClass 'a'
  lineEnds : inClass '\r' = inClass '\n'

theorem isUniform_of_ascii {inClass : Char → Bool}
    (h : ∀ n < 128, (Char.ofNat n).isAlpha = true →
      inClass (Char.ofNat n) = inClass 'a')
    (hends : inClass '\r' = inClass '\n') : IsUniform inClass where
  letters := by
    intro c hc
    exact of_forall_ascii (p := fun c => c.isAlpha = true →
      inClass c = inClass 'a') h
      (toNat_lt_of_isAlpha hc) hc
  lineEnds := hends

theorem isUniform_isBlank : IsUniform isBlank :=
  isUniform_of_ascii (by decide +kernel) (by decide)

theorem isUniform_isWord : IsUniform isWord :=
  isUniform_of_ascii (by decide +kernel) (by decide)

theorem isUniform_isDigit : IsUniform isDigit :=
  isUniform_of_ascii (by decide +kernel) (by decide)

theorem isUniform_ne {mark : Char} (hletter : mark.isAlpha = false)
    (hend : isLineEnd mark = false) : IsUniform (· != mark) where
  letters := by
    have hne : ∀ c : Char, c.isAlpha = true → (c != mark) = true := by
      intro c hc
      rw [bne_iff_ne]
      rintro rfl
      rw [hc] at hletter
      contradiction
    intro c hc
    rw [hne c hc, hne 'a' (by decide)]
  lineEnds := by
    have hne : ∀ c : Char, isLineEnd c = true → (c != mark) = true := by
      intro c hc
      rw [bne_iff_ne]
      rintro rfl
      rw [hc] at hend
      contradiction
    rw [hne '\r' (by decide), hne '\n' (by decide)]

/-! ## Folding -/

theorem sameLetter_iff {a b : Char} :
    sameLetter a b = true ↔ fold a = fold b := by
  simp only [sameLetter, Bool.or_eq_true, beq_iff_eq]
  constructor
  · rintro (rfl | h)
    · rfl
    · exact h
  · exact .inr

private theorem fold_eq_or_le (c : Char) : fold c = c.toNat ∨ 65 ≤ fold c := by
  unfold fold
  split
  · next run hrun =>
      have hleast : ∀ run ∈ foldRuns, 65 ≤ run.low - run.shift := by
        decide +kernel
      have hlow := hleast run (List.mem_of_find?_eq_some hrun)
      have hholds := List.find?_some hrun
      simp only [FoldRun.holds, Bool.and_eq_true, decide_eq_true_eq] at hholds
      right
      omega
  · exact .inl rfl

theorem isLineEnd_eq_of_sameLetter {a b : Char} (h : sameLetter a b = true) :
    isLineEnd a = isLineEnd b := by
  have hends : ∀ {c d : Char}, fold c = fold d → isLineEnd c = true →
      isLineEnd d = true := by
    intro c d hfold hc
    have hcode : fold c = c.toNat ∧ c.toNat < 65 := by
      rcases isLineEnd_iff.1 hc with rfl | rfl <;> decide +kernel
    have heq : c = d := by
      rcases fold_eq_or_le d with hd | hd
      · exact Char.toNat_inj.1 (by omega)
      · omega
    rwa [← heq]
  have hfold := sameLetter_iff.1 h
  rw [Bool.eq_iff_iff]
  exact ⟨hends hfold, hends hfold.symm⟩

theorem fold_toLower (c : Char) : fold c.toLower = fold c := by
  cases hupper : c.isUpper with
  | true =>
      have hall : ∀ n < 26,
          fold (Char.ofNat (65 + n)).toLower = fold (Char.ofNat (65 + n)) := by
        decide +kernel
      obtain ⟨hlow, hhigh⟩ := isUpper_iff.1 hupper
      have hfold := hall (c.toNat - 65) (by omega)
      rwa [Nat.add_sub_cancel' hlow, Char.ofNat_toNat] at hfold
  | false => rw [toLower_eq_of_not_isUpper hupper]

theorem toLower_eq_or_isUpper (c : Char) :
    c.toLower = c ∨ c.isUpper = true ∧ c.toLower.isAlpha = true := by
  by_cases hc : c.toNat < 128
  · have hall : ∀ n < 128, (Char.ofNat n).toLower = Char.ofNat n ∨
        (Char.ofNat n).isUpper = true ∧
            (Char.ofNat n).toLower.isAlpha = true := by
      decide +kernel
    exact of_forall_ascii
      (p := fun c => c.toLower = c ∨ c.isUpper = true ∧
        c.toLower.isAlpha = true) hall hc
  · exact .inl (toLower_eq_of_le (Nat.not_lt.1 hc))

end SnippetGrowth
