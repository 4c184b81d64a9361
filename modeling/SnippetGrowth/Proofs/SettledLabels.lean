import SnippetGrowth.Proofs.Notations
import SnippetGrowth.Proofs.NumberTexts

/-!
# Settled labels

The bound of an expression shows the expression itself or a power of `n` that
it is reduced to.  Either way the label that it shows is settled: it is a text
that is shown as it is written, so reading the label back and classifying it
again gives the same bound.
-/

namespace SnippetGrowth

open Text

/-! ## Expressions that are shown as they are written -/

def HoldsPower (spelled raised text : String) : Prop :=
  occursIn spelled.toList text.toList = true ∨
  occursIn raised.toList text.toList = true

/-- The expressions that are shown as they are written. -/
inductive IsSettled (text : String) : Prop
  | logarithm (h : occursIn "log".toList text.toList = true)
  | square (h : text = "n²")
  | cube (h : text = "n³")
  | plain (square : ¬ HoldsPower "n^2" "n²" text)
      (cube : ¬ HoldsPower "n^3" "n³" text)

namespace Bound

theorem ofExpression_of_isSettled {text : String} (h : IsSettled text) :
    ofExpression text = .ofLabel text := by
  cases h with
  | logarithm h => rw [ofExpression, if_pos h]
  | square h =>
      subst h
      decide
  | cube h =>
      subst h
      decide
  | plain square cube =>
      simp only [HoldsPower, ← Bool.or_eq_true] at square cube
      rw [ofExpression, if_neg square, if_neg cube, ite_self]

private theorem exists_isSettled_ofExpression (text : String) :
    ∃ label, IsSettled label ∧ ofExpression text = .ofLabel label := by
  simp only [ofExpression, Bool.or_eq_true]
  split_ifs with hlogarithm hsquare hcube
  · exact ⟨text, .logarithm hlogarithm, rfl⟩
  · exact ⟨"n²", .square rfl, rfl⟩
  · exact ⟨"n³", .cube rfl, rfl⟩
  · exact ⟨text, .plain hsquare hcube, rfl⟩

end Bound

/-! ## Counts -/

private theorem not_holdsPower {spelled raised text : String} {mark : Char}
    (hspelled : '^' ∈ spelled.toList) (hraised : mark ∈ raised.toList)
    (hcaret : '^' ∉ text.toList) (hmark : mark ∉ text.toList) :
    ¬ HoldsPower spelled raised text := by
  rintro (h | h)
  · rw [occursIn_eq_false_of_mem hspelled hcaret] at h
    contradiction
  · rw [occursIn_eq_false_of_mem hraised hmark] at h
    contradiction

private theorem isSettled_wholeText {n : Int} {text : String}
    (returned : wholeText n = .ok text) :
    IsSettled text := by
  have habsent : ∀ c, isNumeralPart c = false → c ∉ text.toList := by
    rw [← Number.text] at returned
    exact fun _ => not_mem_numberText returned
  have hcaret := habsent '^' (by decide)
  exact .plain (not_holdsPower (by decide)
    (by decide) hcaret (habsent '²' (by decide)))
    (not_holdsPower (by decide) (by decide) hcaret (habsent '³' (by decide)))

/-! ## Classification -/

private theorem exists_isSettled_of_classify {x : Iterations} {b : Bound}
    (returned : classify x = .ok b) :
    ∃ label, IsSettled label ∧ b = .ofLabel label := by
  cases x with
  | count n =>
      rw [classify, map_eq_ok_iff] at returned
      obtain ⟨text, htext, rfl⟩ := returned
      exact ⟨text, isSettled_wholeText htext, rfl⟩
  | expression text | measure _ | flag _ | absent =>
      cases returned
      exact Bound.exists_isSettled_ofExpression _

/--
Whatever is classified, its bound shows the label that is read back from it, and
the label classified in its turn gives the bound again.
-/
theorem classify_settles {x : Iterations} {b : Bound}
    (returned : classify x = .ok b) :
    b = .ofLabel b.label ∧ IsSettled b.label ∧
    classify (.expression b.label) = .ok b := by
  obtain ⟨label, hsettled, rfl⟩ := exists_isSettled_of_classify returned
  rw [Bound.label_ofLabel]
  exact ⟨rfl, hsettled,
    congrArg Except.ok (Bound.ofExpression_of_isSettled hsettled)⟩

theorem classify_settles_halvedSquare :
    classify (.expression "(n^2)/2") = .ok (.ofLabel "n²") ∧
      classify (.expression (Bound.ofLabel "n²").label) =
        .ok (.ofLabel "n²") := by
  have returned : classify (.expression "(n^2)/2") = .ok (.ofLabel "n²") := by
    decide
  exact ⟨returned, (classify_settles returned).2.2⟩

end SnippetGrowth
