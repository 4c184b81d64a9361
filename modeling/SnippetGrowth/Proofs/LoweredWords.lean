import Mathlib.Tactic.SplitIfs
import SnippetGrowth.Proofs.Characters
import SnippetGrowth.Text.Lower

/-!
# Words in lower-case texts

Lower case is not given letter by letter: the dotted capital I becomes two
characters, and a sigma depends on what stands around it.  A basic Latin letter
comes from one in either case, but for the `k` of the Kelvin sign and the `i` in
front of a dot.  So a basic Latin word without a `k` that does not end in `i`
stands in the lower case of a text exactly if it stands in the text with its
basic Latin letters lowered one by one.
-/

namespace SnippetGrowth.Text

/-! ## Lower-case letters -/

theorem lowerLetter_of_basic {c : Char} (h : c.toNat < 128) :
    lowerLetter c = c.toLower := if_pos h

def LowerRun.IsForeign (run : LowerRun) : Prop :=
  128 ≤ run.target ∧ (run.target + (run.high - run.low) < 0xD800 ∨
    0xE000 ≤ run.target ∧ run.target + (run.high - run.low) < 0x110000)

instance (run : LowerRun) : Decidable run.IsForeign :=
  inferInstanceAs (Decidable (_ ∧ _))

private theorem isForeign_of_mem_lowerRuns : ∀ run ∈ lowerRuns,
    run.IsForeign ∨ run.low = kelvinSign.toNat ∧ run.high = kelvinSign.toNat := by
  decide +kernel

private theorem le_toNat_lowerLetter {c : Char} (h : 128 ≤ c.toNat)
    (hkelvin : c ≠ kelvinSign) :
    128 ≤ (lowerLetter c).toNat := by
  rw [lowerLetter, if_neg (Nat.not_lt.2 h)]
  split
  · next run hrun =>
      have hholds := List.find?_some hrun
      simp only [LowerRun.holds, Bool.and_eq_true, decide_eq_true_eq] at hholds
      rcases isForeign_of_mem_lowerRuns run (List.mem_of_find?_eq_some hrun) with
        ⟨htarget, hvalid⟩ | ⟨hlow, hhigh⟩
      · have hchar : (run.target + (c.toNat - run.low)).isValidChar := by
          rcases hvalid with hvalid | hvalid
          · exact .inl (by omega)
          · exact .inr (by omega)
        have hcode : (Char.ofNat (run.target + (c.toNat - run.low))).toNat =
            run.target + (c.toNat - run.low) := by
          rw [Char.ofNat, dif_pos hchar]
          rfl
        omega
      · refine absurd (Char.toNat_inj.1 ?_) hkelvin
        omega
  · exact h

private theorem lowerLetter_kelvinSign :
    lowerLetter kelvinSign = 'k' := by decide +kernel

inductive Lowers (c : Char) : List Char → Prop
  | basic (h : c.toNat < 128) : Lowers c [c.toLower]
  | dotted (h : 128 ≤ c.toNat) : Lowers c ['i', '\u0307']
  | kelvin (h : 128 ≤ c.toNat) : Lowers c ['k']
  | foreign (h : 128 ≤ c.toNat) {d : Char} (hd : 128 ≤ d.toNat) : Lowers c [d]

theorem lowers_lowerBetween (before : List Char) (c : Char) (after : List Char) :
    Lowers c (lowerBetween before c after) := by
  unfold lowerBetween
  split_ifs with hdotted hsigma
  · subst hdotted
    exact .dotted (by decide)
  · simp only [Bool.and_eq_true, decide_eq_true_eq] at hsigma
    rw [hsigma.1]
    exact .foreign (by decide) (by decide)
  · by_cases hbasic : c.toNat < 128
    · rw [lowerLetter_of_basic hbasic]
      exact .basic hbasic
    · by_cases hkelvin : c = kelvinSign
      · rw [hkelvin, lowerLetter_kelvinSign]
        exact .kelvin (by decide)
      · exact .foreign (Nat.not_lt.1 hbasic)
          (le_toNat_lowerLetter (Nat.not_lt.1 hbasic) hkelvin)

/-! ## Steady words -/

/-- Whether no letter of a word comes from another than itself in either case:
all of them are basic Latin, none is a `k`, and an `i` is not the last one. -/
def IsSteady (word : List Char) : Prop :=
  (word.all fun c => c.toNat < 128 && c != 'k') = true ∧ word.getLast? ≠ some 'i'

instance (word : List Char) : Decidable (IsSteady word) :=
  inferInstanceAs (Decidable (_ ∧ _))

theorem IsSteady.head {c : Char} {word : List Char} (h : IsSteady (c :: word)) :
    c.toNat < 128 ∧ c ≠ 'k' := by
  simpa using (List.all_eq_true.1 h.1) c List.mem_cons_self

theorem IsSteady.tail {c : Char} {word : List Char} (h : IsSteady (c :: word)) :
    IsSteady word := by
  refine ⟨?_, fun hlast => h.2 ?_⟩
  · have hall := h.1
    rw [List.all_cons, Bool.and_eq_true] at hall
    exact hall.2
  · rw [List.getLast?_cons, hlast]
    rfl

theorem IsSteady.isPrefixOf_cons_eq_false {word : List Char} (h : IsSteady word)
    (hne : word ≠ []) {d : Char} (hd : 128 ≤ d.toNat ∨ d = 'k')
    (text : List Char) :
    word.isPrefixOf (d :: text) = false := by
  obtain ⟨c, word, rfl⟩ := List.exists_cons_of_ne_nil hne
  have hhead := h.head
  have hc : c ≠ d := by
    rintro rfl
    rcases hd with hd | hd
    · omega
    · exact hhead.2 hd
  simp [List.isPrefixOf_cons_cons, hc]

private theorem IsSteady.isPrefixOf_dotted {word : List Char} (h : IsSteady word)
    (hne : word ≠ []) (text : List Char) :
    word.isPrefixOf ('i' :: '\u0307' :: text) = false := by
  obtain ⟨c, word, rfl⟩ := List.exists_cons_of_ne_nil hne
  rw [List.isPrefixOf_cons_cons]
  by_cases hword : word = []
  · have hc : c ≠ 'i' := fun hc => h.2 (by rw [hc, hword]; rfl)
    simp [hc]
  · rw [h.tail.isPrefixOf_cons_eq_false hword (.inl (by decide)), Bool.and_false]

private theorem isPrefixOf_lowerBehind {word : List Char} (h : IsSteady word)
    (before text : List Char) :
    word.isPrefixOf (lowerBehind before text) =
      word.isPrefixOf (text.map Char.toLower) := by
  -- What stands before the text matters to a sigma only, so the induction is
  -- over every such part.
  induction text generalizing word before with
  | nil => rfl
  | cons c text ih =>
      cases word with
      | nil => rfl
      | cons w word =>
          have hlowers := lowers_lowerBetween before c text
          rw [lowerBehind, List.map_cons]
          generalize lowerBetween before c text = lowered at hlowers
          cases hlowers with
          | basic =>
              rw [List.singleton_append, List.isPrefixOf_cons_cons,
                List.isPrefixOf_cons_cons, ih h.tail]
          | dotted hc =>
              rw [toLower_eq_of_le hc,
                h.isPrefixOf_cons_eq_false (by simp) (.inl hc)]
              exact h.isPrefixOf_dotted (by simp) _
          | kelvin hc =>
              rw [toLower_eq_of_le hc,
                h.isPrefixOf_cons_eq_false (by simp) (.inl hc)]
              exact h.isPrefixOf_cons_eq_false (by simp) (.inr rfl) _
          | foreign hc hd =>
              rw [toLower_eq_of_le hc,
                h.isPrefixOf_cons_eq_false (by simp) (.inl hc)]
              exact h.isPrefixOf_cons_eq_false (by simp) (.inl hd) _

private theorem occursIn_lowerBehind {word : List Char} (h : IsSteady word)
    (hne : word ≠ []) (before text : List Char) :
    occursIn word (lowerBehind before text) =
      occursIn word (text.map Char.toLower) := by
  induction text generalizing before with
  | nil => rfl
  | cons c text ih =>
      have hbegins := isPrefixOf_lowerBehind h before (c :: text)
      have hlowers := lowers_lowerBetween before c text
      rw [lowerBehind, List.map_cons] at hbegins ⊢
      generalize lowerBetween before c text = lowered at hlowers hbegins
      cases hlowers with
      | dotted =>
          have hdot :=
            h.isPrefixOf_cons_eq_false hne (d := '\u0307') (.inl (by decide))
          simp only [List.cons_append, List.nil_append] at hbegins ⊢
          rw [occursIn, occursIn, occursIn, hbegins, hdot, Bool.false_or, ih]
      | basic | kelvin | foreign =>
          rw [List.singleton_append] at hbegins ⊢
          rw [occursIn, occursIn, hbegins, ih]

/-- A steady word stands in the lower case of a text exactly if it stands in the
text with its basic Latin letters lowered. -/
theorem occursIn_lower {word : List Char} (h : IsSteady word) (hne : word ≠ [])
    (text : List Char) :
    occursIn word (lower text) = occursIn word (text.map Char.toLower) :=
  occursIn_lowerBehind h hne [] text

end SnippetGrowth.Text
