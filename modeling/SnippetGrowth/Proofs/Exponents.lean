import Mathlib.Data.List.Basic
import SnippetGrowth.Recurrence

/-!
# Exponents in growth labels

The solution of a recurrence whose exponent decides is a power of `n`, and its
label is read once more as an expression.  That reading looks for a square and
a cube by their first characters, so it keeps an exponent only if its text
starts with neither `2` nor `3`: every exponent that starts with one of them is
cut to it, whatever follows.
-/

namespace SnippetGrowth

open Text

/-! ## Texts of exponents -/

def isNumberPart (c : Char) : Bool :=
  c.isDigit || ['.', '-', 'i', 'n', 'f', 'a'].contains c

theorem isNumberPart_of_isDigit {c : Char} (h : c.isDigit = true) :
    isNumberPart c = true := by
  simp [isNumberPart, h]

theorem isDigit_of_mem_decimalDigits {n : Nat} {c : Char}
    (h : c ∈ Double.decimalDigits n) : c.isDigit = true :=
  Nat.isDigit_of_mem_toDigits (by decide) (by decide) h

theorem isDigit_of_mem_padLeft {width n : Nat} {c : Char}
    (h : c ∈ Double.padLeft width (Double.decimalDigits n)) :
    c.isDigit = true := by
  rcases List.mem_append.1 h with hzero | hdigit
  · rw [(List.mem_replicate.1 hzero).2]
    decide
  · exact isDigit_of_mem_decimalDigits hdigit

theorem isNumberPart_of_mem_withPoint {places value : Nat} {c : Char}
    (h : c ∈ Double.withPoint places value) : isNumberPart c = true := by
  rcases List.mem_append.1 h with hwhole | hfraction
  · exact isNumberPart_of_isDigit
      (isDigit_of_mem_padLeft (List.mem_of_mem_take hwhole))
  · rcases List.mem_cons.1 hfraction with rfl | hdigit
    · decide
    · exact isNumberPart_of_isDigit
        (isDigit_of_mem_padLeft (List.mem_of_mem_drop hdigit))

theorem mem_signText {negative : Bool} {magnitude : List Char} {c : Char}
    (h : c ∈ (Double.signText negative magnitude).toList) :
    c = '-' ∨ c ∈ magnitude := by
  cases negative with
  | false => exact .inr (by simpa [Double.signText] using h)
  | true =>
      rw [Double.signText, if_pos rfl, String.toList_ofList] at h
      exact List.mem_cons.1 h

theorem isNumberPart_of_mem_fixedText {places : Nat} {x : Double} {c : Char}
    (h : c ∈ (x.fixedText places).toList) : isNumberPart c = true := by
  cases x with
  | nan =>
      have hall : Double.nanText.toList.all isNumberPart = true := by decide
      exact List.all_eq_true.1 hall c h
  | infinite negative =>
      have hall :
          (Double.infiniteText negative).toList.all isNumberPart = true := by
        cases negative <;> decide
      exact List.all_eq_true.1 hall c h
  | finite negative significand exponent =>
      rcases mem_signText h with rfl | h
      · decide
      · exact isNumberPart_of_mem_withPoint h

/-! ## Reading a power as an expression -/

theorem occursIn_power_iff {mark : Char} {exponent : List Char}
    (hcaret : '^' ∉ exponent) :
    occursIn ['n', '^', mark] ('n' :: '^' :: exponent) = true ↔
      exponent.head? = some mark := by
  have hrest : occursIn ['n', '^', mark] exponent = false :=
    occursIn_eq_false_of_mem (c := '^') (by simp) hcaret
  have hshift : occursIn ['n', '^', mark] ('^' :: exponent) = false := by
    rw [occursIn, hrest, Bool.or_false]
    rfl
  rw [occursIn, hshift, Bool.or_false, List.isPrefixOf_iff_prefix,
    List.cons_prefix_cons, List.cons_prefix_cons,
    List.singleton_prefix_iff_head?_eq_some]
  simp

def powerLabel (exponent : String) : String :=
  if exponent.toList.head? = some '2' then "n²"
  else if exponent.toList.head? = some '3' then "n³"
  else "n^" ++ exponent

theorem powerLabel_ne_log (text : String) : powerLabel text ≠ "log n" := by
  unfold powerLabel
  split
  · decide
  · split
    · decide
    · intro h
      have hhead := congrArg (·.toList.head?) h
      simp [String.toList_append] at hhead

private theorem ofExpression_power {exponent : String}
    (hparts : ∀ c ∈ exponent.toList, isNumberPart c = true) :
    Bound.ofExpression ("n^" ++ exponent) = .ofLabel (powerLabel exponent) := by
  have habsent : ∀ c : Char, isNumberPart c = false → c ∉ exponent.toList := by
    intro c hc hmem
    rw [hparts c hmem] at hc
    contradiction
  have htext : ("n^" ++ exponent).toList = 'n' :: '^' :: exponent.toList := by
    rw [String.toList_append]
    rfl
  have hlog : occursIn "log".toList ("n^" ++ exponent).toList = false := by
    refine occursIn_eq_false_of_mem (c := 'l') (by decide) ?_
    simpa [htext] using habsent 'l' (by decide)
  have hsquare : occursIn "n²".toList ("n^" ++ exponent).toList = false := by
    refine occursIn_eq_false_of_mem (c := '²') (by decide) ?_
    simpa [htext] using habsent '²' (by decide)
  have hcube : occursIn "n³".toList ("n^" ++ exponent).toList = false := by
    refine occursIn_eq_false_of_mem (c := '³') (by decide) ?_
    simpa [htext] using habsent '³' (by decide)
  have htwo : occursIn "n^2".toList ("n^" ++ exponent).toList = true ↔
      exponent.toList.head? = some '2' := by
    rw [htext]
    exact occursIn_power_iff (habsent '^' (by decide))
  have hthree : occursIn "n^3".toList ("n^" ++ exponent).toList = true ↔
      exponent.toList.head? = some '3' := by
    rw [htext]
    exact occursIn_power_iff (habsent '^' (by decide))
  simp only [Bound.ofExpression, hlog, hsquare, hcube, Bool.or_false,
    Bool.false_eq_true, if_false, htwo, hthree, powerLabel]
  split
  · rfl
  · split <;> rfl

theorem powerBound_eq (exponent : Double) :
    powerBound exponent = .ofLabel (powerLabel (exponent.fixedText 4)) :=
  ofExpression_power fun _ => isNumberPart_of_mem_fixedText

/-! ## Solutions that are powers -/

/-- Whether the exponent decides the growth: with constant work a positive one
does, with linear work one that is not below one, and with any other work each
one does. -/
def ExponentDecides (exponent : Double) (work : String) : Prop :=
  (work = "O(1)" → exponent.isPositive = true) ∧
  (work = "O(n)" → exponent.lt .one = false)

instance (exponent : Double) (work : String) :
    Decidable (ExponentDecides exponent work) :=
  inferInstanceAs (Decidable (_ ∧ _))

theorem solveRecurrence_eq_powerBound {branching reduction : Number}
    {work : String}
    (decides : ExponentDecides (criticalExponent branching reduction) work) :
    solveRecurrence branching reduction work =
      powerBound (criticalExponent branching reduction) := by
  unfold solveRecurrence ExtraWork.ofText?
  split
  · next hconstant => simp [growthOf, decides.1 hconstant]
  · split
    · next hlinear => simp [growthOf, decides.2 hlinear]
    · rfl

/-- The label that a power with the given text of its exponent is due: the power
itself, where the exact square and cube may be written as such. -/
def IsPowerLabel (exponent label : String) : Prop :=
  label = "n^" ++ exponent ∨ exponent = "2.0000" ∧ label = "n²" ∨
    exponent = "3.0000" ∧ label = "n³"

/-- Whether the text of an exponent survives the reading as an expression. -/
def KeptExponent (exponent : String) : Prop :=
  exponent.toList.head? ∉ [some '2', some '3'] ∨ exponent = "2.0000" ∨
  exponent = "3.0000"

instance (exponent label : String) : Decidable (IsPowerLabel exponent label) :=
  inferInstanceAs (Decidable (_ ∨ _))

instance (exponent : String) : Decidable (KeptExponent exponent) :=
  inferInstanceAs (Decidable (_ ∨ _))

theorem ne_power_of_length {label exponent : String}
    (hlabel : label.toList.length = 2) (hexponent : exponent.toList ≠ []) :
    label ≠ "n^" ++ exponent := by
  intro h
  have hlength := congrArg (fun text => text.toList.length) h
  simp only [String.toList_append, List.length_append, hlabel] at hlength
  have hpositive := List.length_pos_iff.2 hexponent
  have hcaret : "n^".toList.length = 2 := by decide
  omega

private theorem isPowerLabel_powerLabel_iff (exponent : String) :
    IsPowerLabel exponent (powerLabel exponent) ↔ KeptExponent exponent := by
  have hhead : ∀ c, exponent.toList.head? = some c → exponent.toList ≠ [] := by
    rintro c h hnil
    simp [hnil] at h
  unfold IsPowerLabel KeptExponent powerLabel
  split
  · next htwo =>
      have hpower : "n²" ≠ "n^" ++ exponent :=
        ne_power_of_length (by decide) (hhead _ htwo)
      have hcube : exponent ≠ "3.0000" := by
        rintro rfl
        simp at htwo
      simp [hpower, hcube, htwo]
  · next htwo =>
      split
      · next hthree =>
          have hpower : "n³" ≠ "n^" ++ exponent :=
            ne_power_of_length (by decide) (hhead _ hthree)
          have hsquare : exponent ≠ "2.0000" := by
            rintro rfl
            simp at hthree
          simp [hpower, hsquare, hthree]
      · next hthree => simp [htwo, hthree]

/--
Where the exponent decides, the label is read off the first character of its
text.  It is the due one exactly if that character is neither `2` nor `3` or
the exponent is a whole `2` or `3`.
-/
theorem solveRecurrence_label_of_exponent (branching reduction : Number)
    (work : String)
    (decides : ExponentDecides (criticalExponent branching reduction) work) :
    let exponent := (criticalExponent branching reduction).fixedText 4
    let label := (solveRecurrence branching reduction work).label
    label = powerLabel exponent ∧
        (IsPowerLabel exponent label ↔ KeptExponent exponent) := by
  intro exponent label
  have hlabel : label = powerLabel exponent := by
    change (solveRecurrence branching reduction work).label = _
    rw [solveRecurrence_eq_powerBound decides, powerBound_eq, Bound.label_ofLabel]
  rw [hlabel]
  exact ⟨rfl, isPowerLabel_powerLabel_iff exponent⟩

theorem solveRecurrence_label_three_halves :
    ExponentDecides (criticalExponent (.whole 3) (.whole 2)) "O(1)" ∧
      (solveRecurrence (.whole 3) (.whole 2) "O(1)").label = "n^1.5850" := by
  have decides :
      ExponentDecides (criticalExponent (.whole 3) (.whole 2)) "O(1)" := by
    decide +kernel
  have hexponent :
      powerLabel ((criticalExponent (.whole 3) (.whole 2)).fixedText 4) =
      "n^1.5850" := by
    decide +kernel
  exact ⟨decides,
    (solveRecurrence_label_of_exponent (.whole 3)
      (.whole 2) "O(1)" decides).1.trans hexponent⟩

/-- Five calls on halves have an exponent above two, which is cut to a square. -/
theorem solveRecurrence_label_five_halves :
    ¬ ∀ (branching reduction : Int) (work : String), 1 ≤ branching →
      2 ≤ reduction →
      ExponentDecides
        (criticalExponent (.whole branching) (.whole reduction)) work →
      IsPowerLabel
        ((criticalExponent (.whole branching) (.whole reduction)).fixedText 4)
        (solveRecurrence (.whole branching) (.whole reduction) work).label := by
  intro claimed
  have hfive := claimed 5 2 "O(1)" (by decide) (by decide) (by decide +kernel)
  revert hfive
  decide +kernel

end SnippetGrowth
