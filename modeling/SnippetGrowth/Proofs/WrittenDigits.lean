import Mathlib.Data.Nat.Digits.Defs
import SnippetGrowth.Numeral
import SnippetGrowth.Proofs.Characters

/-!
# Written digits

A whole number is written by digits behind a zero and the mark of their base, or
by decimal digits alone, with single low lines between digits.  A literal is
read without its low lines, so behind a mark it is the number that its digits
write, whatever its size.
-/

namespace SnippetGrowth

open Text Numeral

def IsDigitOf (base : Nat) (c : Char) (digit : Nat) : Prop :=
  digit < base ∧ (c = digit.digitChar ∨ c = digit.digitChar.toUpper)

/--
Whether a text is made of digits of a base, with these values and perhaps with
single low lines between them.
-/
inductive Spells (base : Nat) : List Char → List Nat → Prop
  | last {c : Char} {digit : Nat} (h : IsDigitOf base c digit) :
      Spells base [c] [digit]
  | next {c : Char} {digit : Nat} {text : List Char} {digits : List Nat}
      (h : IsDigitOf base c digit) (rest : Spells base text digits) :
      Spells base (c :: text) (digit :: digits)
  | apart {c : Char} {digit : Nat} {text : List Char} {digits : List Nat}
      (h : IsDigitOf base c digit) (rest : Spells base text digits) :
      Spells base (c :: '_' :: text) (digit :: digits)

def baseMarks : List (Char × Nat) :=
  [('x', 16), ('X', 16), ('o', 8), ('O', 8), ('b', 2), ('B', 2)]

/-- Whether a literal writes a whole number in a base. -/
inductive Writes : List Char → Nat → Nat → Prop
  | marked {mark : Char} {base : Nat} {text : List Char} {digits : List Nat}
      (hmark : (mark, base) ∈ baseMarks) (h : Spells base text digits) :
      Writes ('0' :: mark :: text) base (Nat.ofDigits base digits.reverse)
  | decimal {text : List Char} {digits : List Nat} (h : Spells 10 text digits) :
      Writes text 10 (Nat.ofDigits 10 digits.reverse)

/-! ## Characters -/

variable {base digit : Nat} {c : Char}

theorem IsDigitOf.of_forall {p : Nat → Char → Prop} {bound : Nat}
    (h : IsDigitOf base c digit) (hbase : base ≤ bound)
    (hall : ∀ digit < bound, p digit digit.digitChar ∧
      p digit digit.digitChar.toUpper) :
    p digit c := by
  obtain ⟨hlower, hupper⟩ := hall digit (h.1.trans_le hbase)
  rcases h.2 with rfl | rfl
  · exact hlower
  · exact hupper

theorem IsDigitOf.plain (h : IsDigitOf base c digit) (hbase : base ≤ 16) :
    c ≠ '_' ∧ c ≠ 'n' ∧ isMargin c = false :=
  h.of_forall (p := fun _ c => c ≠ '_' ∧ c ≠ 'n' ∧ isMargin c = false) hbase
    (by decide +kernel)

theorem IsDigitOf.decimal (h : IsDigitOf 10 c digit) :
    c.isDigit = true ∧ digitValue? c = some digit ∧ base? c = none :=
  h.of_forall (p := fun digit c =>
    c.isDigit = true ∧ digitValue? c = some digit ∧
    base? c = none) le_rfl (by decide +kernel)

theorem IsDigitOf.digitIn?_eq (h : IsDigitOf base c digit) (hbase : base ≤ 16) :
    digitIn? base c = some digit := by
  have hhex : digitIn? 16 c = some digit :=
    h.of_forall (p := fun digit c => digitIn? 16 c = some digit) hbase
      (by decide +kernel)
  unfold digitIn? at hhex ⊢
  simp only [Option.ite_none_right_eq_some, Bool.and_eq_true,
    decide_eq_true_eq] at hhex ⊢
  obtain ⟨⟨hrange, -⟩, hvalue⟩ := hhex
  refine ⟨⟨hrange, ?_⟩, hvalue⟩
  rw [Option.some.inj hvalue]
  exact h.1

theorem baseMark_plain : ∀ entry ∈ baseMarks,
    base? entry.1 = some entry.2 ∧ entry.2 ≤ 16 ∧ entry.2 ≠ 10 ∧ entry.1 ≠ '_' ∧
      entry.1 ≠ 'n' ∧ isMargin entry.1 = false := by
  decide

theorem dropMargins_eq_self {text : List Char}
    (h : ∀ c ∈ text, isMargin c = false) :
    dropMargins text = text := by
  have hkept : ∀ {chars : List Char}, (∀ c ∈ chars, isMargin c = false) →
      chars.dropWhile isMargin = chars := by
    intro chars hchars
    cases chars with
    | nil => rfl
    | cons c rest => simp [hchars c List.mem_cons_self]
  rw [dropMargins, hkept h, hkept (fun c hc => h c (List.mem_reverse.1 hc)),
    List.reverse_reverse]

theorem withoutLowLines_append (left right : List Char) :
    withoutLowLines (left ++ right) = withoutLowLines left ++
      withoutLowLines right :=
  List.filter_append ..

theorem withoutLowLines_cons (hc : c ≠ '_') (text : List Char) :
    withoutLowLines (c :: text) = c :: withoutLowLines text :=
  List.filter_cons_of_pos (by simpa using hc)

/-! ## Digits without low lines -/

namespace Spells

variable {text : List Char} {digits : List Nat}

theorem ne_nil (h : Spells base text digits) : digits ≠ [] := by
  cases h <;> exact List.cons_ne_nil _ _

theorem mem (h : Spells base text digits) (hc : c ∈ text) :
    c = '_' ∨ ∃ digit, IsDigitOf base c digit := by
  induction h with
  | last h => exact .inr ⟨_, List.mem_singleton.1 hc ▸ h⟩
  | next h rest ih =>
      rcases List.mem_cons.1 hc with rfl | hc
      · exact .inr ⟨_, h⟩
      · exact ih hc
  | apart h rest ih =>
      rcases List.mem_cons.1 hc with rfl | hc
      · exact .inr ⟨_, h⟩
      · rcases List.mem_cons.1 hc with rfl | hc
        · exact .inl rfl
        · exact ih hc

theorem mem_withoutLowLines (h : Spells base text digits)
    (hc : c ∈ withoutLowLines text) :
    ∃ digit, IsDigitOf base c digit := by
  obtain ⟨hmem, hlow⟩ := List.mem_filter.1 hc
  exact (h.mem hmem).resolve_left (by simpa using hlow)

theorem forall₂_withoutLowLines (h : Spells base text digits)
    (hbase : base ≤ 16) :
    List.Forall₂ (IsDigitOf base) (withoutLowLines text) digits := by
  induction h with
  | last h =>
      rw [withoutLowLines_cons (h.plain hbase).1]
      exact .cons h .nil
  | next h rest ih =>
      rw [withoutLowLines_cons (h.plain hbase).1]
      exact .cons h ih
  | apart h rest ih =>
      rw [withoutLowLines_cons (h.plain hbase).1]
      exact .cons h ih

theorem withoutLowLines_ne_nil (h : Spells base text digits) (hbase : base ≤ 16) :
    withoutLowLines text ≠ [] := by
  intro hnil
  have hdigits := h.forall₂_withoutLowLines hbase
  rw [hnil] at hdigits
  cases hdigits
  exact h.ne_nil rfl

end Spells

/-! ## Digits behind a mark -/

theorem ofDigits_reverse (base : Nat) (digits : List Nat) :
    Nat.ofDigits base digits.reverse =
      digits.foldl (fun value digit => base * value + digit) 0 := by
  rw [Nat.ofDigits_eq_foldr, List.foldr_reverse]
  simp only [Nat.cast_id, Nat.add_comm]

private theorem digitsIn?_of_forall₂ {chars : List Char} {digits : List Nat}
    (h : List.Forall₂ (IsDigitOf base) chars digits) (hbase : base ≤ 16)
    (hne : digits ≠ []) :
    digitsIn? base chars = some (Nat.ofDigits base digits.reverse) := by
  have hfold : ∀ start : Nat,
      chars.foldlM
        (fun value c => (digitIn? base c).map (base * value + ·)) start =
        some (digits.foldl (fun value digit => base * value + digit) start) := by
    clear hne
    induction h with
    | nil => exact fun start => rfl
    | cons hdigit rest ih =>
        intro start
        rw [List.foldlM_cons, hdigit.digitIn?_eq hbase]
        exact ih _
  have hchars : chars.isEmpty = false := by
    cases h with
    | nil => contradiction
    | cons => rfl
  rw [digitsIn?, hchars, if_neg Bool.false_ne_true, hfold, ofDigits_reverse]

theorem based_of_spells {mark : Char} {text : List Char} {digits : List Nat}
    (hmark : (mark, base) ∈ baseMarks) (h : Spells base text digits) :
    based base (withoutLowLines ('0' :: mark :: text)) =
      .ok (.whole (Nat.ofDigits base digits.reverse : Nat)) := by
  obtain ⟨-, hbase, -, hlow, -, hmargin⟩ := baseMark_plain _ hmark
  have hmargins : ∀ c ∈ '0' :: mark :: withoutLowLines text,
      isMargin c = false := by
    simp only [List.forall_mem_cons]
    refine ⟨by decide, hmargin, fun c hc => ?_⟩
    obtain ⟨digit, hdigit⟩ := h.mem_withoutLowLines hc
    exact (hdigit.plain hbase).2.2
  have hvalue :=
    digitsIn?_of_forall₂ (h.forall₂_withoutLowLines hbase) hbase h.ne_nil
  rw [withoutLowLines_cons (by decide), withoutLowLines_cons hlow, based,
    dropMargins_eq_self hmargins, List.drop_succ_cons, List.drop_succ_cons,
    List.drop_zero,
    hvalue]

theorem announced?_of_spells {text : List Char} {digits : List Nat}
    (h : Spells 10 text digits) : announced? text = none := by
  unfold announced?
  split
  · next letter rest =>
      have hmem : letter ∈ '0' :: letter :: rest := by simp
      rcases h.mem hmem with rfl | ⟨digit, hdigit⟩
      · decide
      · exact hdigit.decimal.2.2
  · rfl

end SnippetGrowth
