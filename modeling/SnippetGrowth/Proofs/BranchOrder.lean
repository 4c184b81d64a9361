import SnippetGrowth.Proofs.CriticalExponents
import SnippetGrowth.Proofs.Labels
import SnippetGrowth.Proofs.Selection

/-!
# The growth of more branches

A solution ranks as a square or a cube by the first character of its exponent,
and as linear otherwise.  Among exponents below four that character is the
whole part, and the whole part keeps the order of the exponents.  So more
branches are no less dominant, unless they bring a square or a cube to a power
from four on, which has no class of its own.
-/

namespace SnippetGrowth

/-! ## Whole parts of fixed forms -/

namespace Double

private theorem padLeft_decimalDigits (width n : Nat) :
    padLeft (width + 2) (decimalDigits n) =
    padLeft (width + 1) (decimalDigits (n / 10)) ++ [(n % 10).digitChar] := by
  have hten : 1 < 10 := by decide
  unfold padLeft decimalDigits
  rcases Nat.lt_or_ge n 10 with hless | hmore
  · have hnone : n / 10 = 0 := by omega
    have hrest : n % 10 = n := by omega
    rw [hnone, hrest, Nat.toDigits_of_lt_base hless, Nat.toDigits_zero]
    simp [List.replicate_succ', List.append_assoc]
  · have hwidth : ∀ k, width + 2 - (k + 1) = width + 1 - k := by omega
    rw [Nat.toDigits_of_base_le hten hmore, List.length_append,
      List.length_singleton, hwidth, List.append_assoc]

private theorem padLeft_eq_cons {n : Nat} (places : Nat)
    (h : n < 10 ^ (places + 1)) :
    ∃ rest, padLeft (places + 1) (decimalDigits n) =
      (n / 10 ^ places).digitChar :: rest ∧
      rest.length = places := by
  induction places generalizing n with
  | zero =>
      refine ⟨[], ?_, rfl⟩
      rw [decimalDigits, Nat.toDigits_of_lt_base (by simpa using h)]
      simp [padLeft]
  | succ places ih =>
      obtain ⟨rest, hrest, hlength⟩ := ih (show n / 10 < 10 ^ (places + 1) by
        rw [pow_succ] at h
        omega)
      refine ⟨rest ++ [(n % 10).digitChar], ?_, by simp [hlength]⟩
      rw [padLeft_decimalDigits, hrest, List.cons_append, Nat.div_div_eq_div_mul,
        ← pow_succ']

theorem withPoint_eq_cons {n places : Nat} (h : n < 10 ^ (places + 1)) :
    ∃ fraction, withPoint places n = (n / 10 ^ places).digitChar :: '.' ::
      fraction := by
  obtain ⟨rest, hdigits, hlength⟩ := padLeft_eq_cons places h
  refine ⟨rest, ?_⟩
  simp [withPoint, hdigits, hlength]

theorem getElem?_one_withPoint {n places : Nat} (h : 10 ^ (places + 1) ≤ n) :
    (withPoint places n)[1]? ≠ some '.' := by
  set digits := padLeft (places + 1) (decimalDigits n) with hdigits
  have hlength : places + 2 ≤ digits.length := by
    have hlong : ¬ (decimalDigits n).length ≤ places + 1 := by
      rw [decimalDigits, Nat.length_toDigits_le_iff (by decide) (by omega)]
      omega
    rw [hdigits, padLeft, List.length_append]
    omega
  intro hpoint
  rw [withPoint, ← hdigits,
    List.getElem?_append_left (by rw [List.length_take]; omega)] at hpoint
  have hdigit :=
    isDigit_of_mem_padLeft (List.mem_of_mem_take (List.mem_of_getElem? hpoint))
  exact absurd hdigit (by decide)

end Double

def IsBelowFour (text : String) : Prop :=
  text.toList.head? ∈ [some '0', some '1', some '2', some '3'] ∧
  text.toList[1]? = some '.'

instance (text : String) : Decidable (IsBelowFour text) :=
  inferInstanceAs (Decidable (_ ∧ _))

theorem digitChar_of_lt_ten {digit : Nat} (h : digit < 10) :
    (some digit.digitChar = some '2' ↔ digit = 2) ∧
      (some digit.digitChar = some '3' ↔ digit = 3) ∧
      (some digit.digitChar ∈ [some '0', some '1', some '2', some '3'] ↔
        digit < 4) := by
  decide +revert

theorem head?_signText {n : Nat} (h : n < 10 ^ 5) :
    (Double.signText false (Double.withPoint 4 n)).toList.head? =
      some (n / 10 ^ 4).digitChar := by
  obtain ⟨fraction, htext⟩ := Double.withPoint_eq_cons h
  rw [Double.signText, if_neg Bool.false_ne_true, String.toList_ofList, htext,
    List.head?_cons]

theorem lt_of_isBelowFour {n : Nat}
    (h : IsBelowFour (Double.signText false (Double.withPoint 4 n))) :
    n < 4 * 10 ^ 4 := by
  have hsmall : n < 10 ^ 5 := by
    by_contra hlarge
    refine Double.getElem?_one_withPoint (not_lt.1 hlarge) ?_
    simpa [Double.signText] using h.2
  have hdigit := h.1
  rw [head?_signText hsmall, (digitChar_of_lt_ten (by omega)).2.2] at hdigit
  omega

/-! ## Ranks of solutions -/

private theorem rank_ofLabel_power {exponent : String}
    (hparts : ∀ c ∈ exponent.toList, isNumberPart c = true) :
    (Bound.ofLabel ("n^" ++ exponent)).rank = GrowthClass.linear.rank := by
  have htext : ("n^" ++ exponent).toList = 'n' :: '^' :: exponent.toList := by
    rw [String.toList_append]
    rfl
  -- A marker of a more dominant class has a character that no exponent has.
  have hforeign : ∀ entry ∈ GrowthClass.markers,
      entry.1.rank < GrowthClass.linear.rank →
      (entry.2.toList.any fun c => !isNumberPart c && c != '^') = true := by
        decide
  rw [Bound.rank, Bound.growthClass_ofLabel]
  have hbelow : (GrowthClass.ofText ("n^" ++ exponent)).rank ≤
      GrowthClass.linear.rank := by
    have hmarker : (GrowthClass.linear, "n") ∈ GrowthClass.markers := by decide
    refine GrowthClass.rank_ofText_le hmarker (Text.occursIn_singleton_iff.2 ?_)
    rw [htext]
    exact List.mem_cons_self
  refine le_antisymm hbelow (not_lt.1 fun hless => ?_)
  rcases GrowthClass.ofText_eq_unranked_or_marked ("n^" ++ exponent) with
    hnone | ⟨entry, hentry, hclass, hoccurs⟩
  · rw [hnone] at hless
    exact absurd hless (by decide)
  · rw [hclass] at hless
    obtain ⟨c, hmem, hforeign⟩ := List.any_eq_true.1 (hforeign entry hentry hless)
    simp only [Bool.and_eq_true, Bool.not_eq_true', bne_iff_ne] at hforeign
    obtain ⟨hpart, hcaret⟩ := hforeign
    have hletter : isNumberPart 'n' = true := by decide
    have habsent : c ∉ ("n^" ++ exponent).toList := by
      rw [htext, List.mem_cons, List.mem_cons, not_or, not_or]
      refine ⟨?_, hcaret, fun hmem => ?_⟩
      · rintro rfl
        simp [hletter] at hpart
      · simp [hparts c hmem] at hpart
    rw [Text.occursIn_eq_false_of_mem hmem habsent] at hoccurs
    contradiction

private theorem rank_ofLabel_powerLabel (exponent : Double) :
    (Bound.ofLabel (powerLabel (exponent.fixedText 4))).rank =
      GrowthClass.linear.rank ∨
      powerLabel (exponent.fixedText 4) ∈ ["n²", "n³"] := by
  unfold powerLabel
  split
  · exact .inr (by decide)
  · split
    · exact .inr (by decide)
    · exact .inl (rank_ofLabel_power fun _ => isNumberPart_of_mem_fixedText)

private theorem growthOf_cases (exponent : Double) (work : ExtraWork) :
    (ExponentDecides exponent work.text ∧ growthOf exponent (some work) =
      powerBound exponent) ∨
      growthOf exponent (some work) = .ofLabel "log n" ∨
      growthOf exponent (some work) = .ofLabel "n" := by
  have hlog : Bound.ofExpression "log n" = .ofLabel "log n" := by decide
  have hlinear : Bound.ofExpression "n" = .ofLabel "n" := by decide
  cases work with
  | constant =>
      cases hpositive : exponent.isPositive with
      | true => simp [growthOf, ExponentDecides, ExtraWork.text, hpositive]
      | false => simp [growthOf, hpositive, hlog]
  | linear =>
      cases hone : exponent.lt .one with
      | true => simp [growthOf, hone, hlinear]
      | false => simp [growthOf, ExponentDecides, ExtraWork.text, hone]

theorem rank_growthOf_cases (exponent : Double) (work : ExtraWork) :
    (growthOf exponent (some work)).rank = GrowthClass.linear.rank ∨
      ExponentDecides exponent work.text ∧
      growthOf exponent (some work) = powerBound exponent ∧
        powerLabel (exponent.fixedText 4) ∈ ["n²", "n³"] := by
  rcases growthOf_cases exponent work with ⟨hdecides, hpower⟩ | hlog | hlinear
  · rcases rank_ofLabel_powerLabel exponent with hrank | hlabel
    · exact .inl (by rw [hpower, powerBound_eq, hrank])
    · exact .inr ⟨hdecides, hpower, hlabel⟩
  · exact .inl (by rw [hlog]; decide)
  · exact .inl (by rw [hlinear]; decide)

theorem rank_growthOf_le_linear (exponent : Double) (work : ExtraWork) :
    (growthOf exponent (some work)).rank ≤ GrowthClass.linear.rank := by
  rcases rank_growthOf_cases exponent work with hrank | ⟨-, hpower, hlabel⟩
  · exact hrank.le
  · have hranks : ∀ label ∈ ["n²", "n³"],
        (Bound.ofLabel label).rank ≤ GrowthClass.linear.rank := by decide
    rw [hpower, powerBound_eq]
    exact hranks _ hlabel

theorem exponentDecides_of_le {p p' : Nat} {e e' : Int} {work : String}
    (hvalue : (p * 2 ^ e : ℝ) ≤ p' * 2 ^ e')
    (h : ExponentDecides (.finite false p e) work) :
    ExponentDecides (.finite false p' e') work := by
  refine ⟨fun hwork => ?_, fun hwork => ?_⟩
  · have hpositive := h.1 hwork
    rw [Double.isPositive, Double.zero, Double.signedZero,
      Double.lt_finite_iff] at hpositive ⊢
    exact hpositive.trans_le hvalue
  · have hone := h.2 hwork
    rw [Bool.eq_false_iff, Ne, Double.one, Double.lt_finite_iff, not_lt] at hone ⊢
    exact hone.trans hvalue

theorem growthOf_of_decides {exponent : Double} {work : ExtraWork}
    (h : ExponentDecides exponent work.text) :
    growthOf exponent (some work) = powerBound exponent := by
  cases work with
  | constant => simp [growthOf, h.1 rfl]
  | linear => simp [growthOf, h.2 rfl]

/-! ## Whole parts of exponents -/

def fourthPlaces (m : Nat) (e : Int) : Nat :=
  roundQuotient (m * 2 ^ e.toNat * 10 ^ 4) (2 ^ (-e).toNat)

private theorem fixedText_finite (m : Nat) (e : Int) :
    (Double.finite false m e).fixedText 4 =
    Double.signText false (Double.withPoint 4 (fourthPlaces m e)) := rfl

private theorem fourthPlaces_le {p p' : Nat} {e e' : Int}
    (hvalue : (p * 2 ^ e : ℝ) ≤ p' * 2 ^ e') :
    fourthPlaces p e ≤ fourthPlaces p' e' := by
  rw [← Double.cast_ratio, ← Double.cast_ratio,
    div_le_div_iff₀ (by positivity) (by positivity)] at hvalue
  refine roundQuotient_le_roundQuotient (Nat.two_pow_pos _) (Nat.two_pow_pos _) ?_
  rw [Nat.mul_right_comm _ (10 ^ 4), Nat.mul_right_comm _ (10 ^ 4)]
  exact Nat.mul_le_mul_right _ (by exact_mod_cast hvalue)

private theorem powerLabel_of_head {text : String} {digit : Nat} (h : digit < 10)
    (hhead : text.toList.head? = some digit.digitChar) :
    (powerLabel text = "n²" ↔ digit = 2) ∧
      (powerLabel text = "n³" ↔ digit = 3) := by
  have hnonempty : text.toList ≠ [] := by
    intro hnil
    rw [hnil] at hhead
    contradiction
  obtain ⟨htwo, hthree, -⟩ := digitChar_of_lt_ten h
  have hsquare : "n²" ≠ "n^" ++ text := ne_power_of_length (by decide) hnonempty
  have hcube : "n³" ≠ "n^" ++ text := ne_power_of_length (by decide) hnonempty
  simp only [powerLabel, hhead, htwo, hthree]
  split
  · next h2 => simp [h2]
  · next h2 =>
      split
      · next h3 => simp [h3]
      · next h3 => simp [h2, h3, hsquare.symm, hcube.symm]

private theorem rank_growthOf_le {p p' : Nat} {e e' : Int} (work : ExtraWork)
    (hvalue : (p * 2 ^ e : ℝ) ≤ p' * 2 ^ e')
    (hbelow : IsBelowFour ((Double.finite false p' e').fixedText 4)) :
    (growthOf (.finite false p' e') (some work)).rank ≤
      (growthOf (.finite false p e) (some work)).rank := by
  rcases rank_growthOf_cases (.finite false p e) work with
    hlinear | ⟨hdecides, hpower, hlabel⟩
  · rw [hlinear]
    exact rank_growthOf_le_linear _ work
  · have hplaces := fourthPlaces_le hvalue
    rw [fixedText_finite] at hbelow hlabel
    have hfour := lt_of_isBelowFour hbelow
    obtain ⟨hsquare, hcube⟩ := powerLabel_of_head (by omega)
      (head?_signText (show fourthPlaces p e < 10 ^ 5 by omega))
    obtain ⟨hsquare', hcube'⟩ := powerLabel_of_head (by omega)
      (head?_signText (show fourthPlaces p' e' < 10 ^ 5 by omega))
    have hranks : (Bound.ofLabel "n³").rank ≤ (Bound.ofLabel "n²").rank := by
      decide
    rw [growthOf_of_decides (exponentDecides_of_le hvalue hdecides), hpower,
      powerBound_eq, powerBound_eq, fixedText_finite, fixedText_finite]
    simp only [List.mem_cons, List.not_mem_nil, or_false] at hlabel
    rcases hlabel with htwo | hthree
    · have hwhole : fourthPlaces p' e' / 10 ^ 4 = 2 ∨
          fourthPlaces p' e' / 10 ^ 4 = 3 := by
        have := hsquare.1 htwo
        omega
      rw [htwo]
      rcases hwhole with htwo' | hthree'
      · rw [hsquare'.2 htwo']
      · rw [hcube'.2 hthree']
        exact hranks
    · have hwhole : fourthPlaces p' e' / 10 ^ 4 = 3 := by
        have := hcube.1 hthree
        omega
      rw [hthree, hcube'.2 hwhole]

/-! ## More branches -/

private theorem solveRecurrence_text (branching reduction : Number)
    (work : ExtraWork) :
    solveRecurrence branching reduction work.text =
      growthOf (criticalExponent branching reduction) (some work) := by
  rw [solveRecurrence, ExtraWork.ofText?_text]

private theorem isFinite_of_isBelowFour {x : Double}
    (h : IsBelowFour (x.fixedText 4)) :
    x.isFinite = true := by
  cases x with
  | nan => exact absurd h (by decide)
  | infinite negative =>
      cases negative <;> exact absurd h (by decide)
  | finite negative m e => rfl

/--
More branches are no less dominant.  A solution that is neither a square nor a
cube ranks lowest anyway.  From a square or a cube the solution keeps its rank
or gains one while the exponent is shown below four, as long as the logarithms
of the branches are in order, which they are in the range of doubles.
-/
theorem rank_solveRecurrence_le (branching more : Nat) (reduction : Number)
    (work : ExtraWork) (positive : 1 ≤ branching) (le : branching ≤ more)
    (atLeastTwo : reduction.IsAtLeastTwo)
    (kept : (solveRecurrence (.whole branching) reduction work.text).label ∈
      ["n²", "n³"] →
      IsBelowFour ((criticalExponent (.whole more) reduction).fixedText 4) ∧
        ((Double.ofNat more).isFinite = true ∨
          (Number.whole more).ln.lt (Number.whole branching).ln = false)) :
    (solveRecurrence (.whole more) reduction work.text).rank ≤
      (solveRecurrence (.whole branching) reduction work.text).rank := by
  rw [solveRecurrence_text] at kept ⊢
  rw [solveRecurrence_text]
  rcases rank_growthOf_cases (criticalExponent (.whole branching) reduction)
      work with
    hlinear | ⟨-, hpower, hlabel⟩
  · rw [hlinear]
    exact rank_growthOf_le_linear _ work
  · rw [hpower, powerBound_eq, Bound.label_ofLabel] at kept
    obtain ⟨hbelow, hrange⟩ := kept hlabel
    have hlogs :
        (Number.whole more).ln.lt (Number.whole branching).ln = false := by
      rcases hrange with hfinite | hlogs
      · exact Number.lt_ln_whole_eq_false (by omega) le hfinite
      · exact hlogs
    obtain ⟨p, e, p', e', hexponent, hexponent', hvalue⟩ :=
      exists_criticalExponent_eq (by omega) (by omega) atLeastTwo hlogs
        (isFinite_of_isBelowFour hbelow)
    rw [hexponent'] at hbelow
    rw [hexponent, hexponent']
    exact rank_growthOf_le work hvalue hbelow

theorem rank_solveRecurrence_le_halving :
    (solveRecurrence (.whole 4) (.whole 2) "O(1)").label = "n²" ∧
      (solveRecurrence (.whole 8) (.whole 2) "O(1)").rank ≤
        (solveRecurrence (.whole 4) (.whole 2) "O(1)").rank :=
  ⟨by decide +kernel, rank_solveRecurrence_le 4 8 (.whole 2) .constant (by
    decide) (by decide)
    (by decide : (2 : Int) ≤ 2) fun _ =>
      ⟨by decide +kernel, .inl (by decide +kernel)⟩⟩

def wideReduction : Number := .whole (4448379281611 * 2 ^ 943)

/-- Two ways of losing rank: a cube is followed by a power of four, and past the
range of doubles the greater one of two numbers has the lesser logarithm, so
that a cube is followed by a square. -/
theorem rank_solveRecurrence_drops :
    (solveRecurrence (.whole 8) (.whole 2) "O(1)").rank <
        (solveRecurrence (.whole 16) (.whole 2) "O(1)").rank ∧
      IsBelowFour
        ((criticalExponent (.whole (2 ^ 2955)) wideReduction).fixedText 4) ∧
      (solveRecurrence (.whole (2 ^ 2955 - 2 ^ 2902)) wideReduction "O(1)").rank <
        (solveRecurrence (.whole (2 ^ 2955)) wideReduction "O(1)").rank := by
  refine ⟨?_, ?_, ?_⟩ <;> decide +kernel

end SnippetGrowth
