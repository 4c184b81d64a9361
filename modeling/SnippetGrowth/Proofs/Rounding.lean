import Mathlib.Tactic.Ring
import Mathlib.Tactic.SplitIfs
import SnippetGrowth.Double.Basic

/-!
# Whole numbers as doubles

A whole number that has a double is rounded to another whole number, and to
zero only if it is zero itself: the spacing of doubles is a whole number past
the significand, and below it nothing is rounded.
-/

namespace SnippetGrowth

/-! ## Rounded quotients -/

theorem roundQuotient_one (n : Nat) : roundQuotient n 1 = n := by
  simp [roundQuotient, Nat.mod_one]

theorem div_le_roundQuotient (n d : Nat) : n / d ≤ roundQuotient n d := by
  simp only [roundQuotient]
  split
  · exact Nat.le_refl _
  · split <;> omega

private theorem binaryExponent_one {n : Nat} (h : n ≠ 0) :
    binaryExponent n 1 = n.log2 := by
  have hpower : 2 ^ n.log2 ≤ n := Nat.log2_self_le h
  have hone : Nat.log2 1 = 0 := by decide
  simp [binaryExponent, hone, hpower]

namespace Double

theorem quantum_one {n : Nat} (h : n ≠ 0) : quantum n 1 = n.log2 - 52 := by
  rw [quantum, binaryExponent_one h, leastExponent]
  omega

/-! ## Whole doubles -/

def IsPositiveWhole : Double → Prop
  | finite negative m e => negative = false ∧ m ≠ 0 ∧ 2 ^ (-e).toNat ∣ m
  | _ => False

theorem IsPositiveWhole.toInt?_eq {x : Double} (h : x.IsPositiveWhole) :
    ∃ n : Nat, n ≠ 0 ∧ x.toInt? = some n := by
  cases x with
  | nan => exact h.elim
  | infinite negative => exact h.elim
  | finite negative m e =>
      obtain ⟨rfl, hm, k, rfl⟩ := h
      have hdivisor : 0 < 2 ^ (-e).toNat := Nat.two_pow_pos _
      have hmagnitude : 2 ^ (-e).toNat * k * 2 ^ e.toNat =
          2 ^ (-e).toNat * (k * 2 ^ e.toNat) := by
        ring
      have hpositive : k * 2 ^ e.toNat ≠ 0 :=
        Nat.mul_ne_zero (Nat.ne_zero_of_mul_ne_zero_right hm)
          (Nat.two_pow_pos _).ne'
      refine ⟨k * 2 ^ e.toNat, hpositive, ?_⟩
      simp [toInt?, hmagnitude, Nat.mul_div_cancel_left _ hdivisor]

theorem ofNat_zero : ofNat 0 = zero := rfl

theorem toInt?_zero : zero.toInt? = some 0 := by
  simp [zero, signedZero, toInt?]

theorem isPositiveWhole_of_nonneg {m : Nat} {e : Int} (hm : m ≠ 0) (he : 0 ≤ e) :
    (finite false m e).IsPositiveWhole := by
  have hdivisor : (-e).toNat = 0 := by omega
  exact ⟨rfl, hm, by simp [hdivisor]⟩

private theorem ofRatio_eq_of_isFinite {negative : Bool}
    {numerator denominator significand : Nat} (h : numerator ≠ 0)
    (hfinite : (ofRatio negative numerator denominator).isFinite = true)
    (hsignificand : roundQuotient
      (numerator * 2 ^ (-quantum numerator denominator).toNat)
      (denominator * 2 ^ (quantum numerator denominator).toNat) = significand) :
    significand = 2 ^ 53 ∧ ofRatio negative numerator denominator =
        finite negative (2 ^ 52) (quantum numerator denominator + 1) ∨
      significand ≠ 2 ^ 53 ∧ ofRatio negative numerator denominator =
        finite negative significand (quantum numerator denominator) := by
  unfold ofRatio at hfinite ⊢
  simp only [h, if_false, hsignificand] at hfinite ⊢
  split_ifs at hfinite ⊢ with hcarry hgreatest hgreatest
  · exact .inl ⟨hcarry, rfl⟩
  · contradiction
  · exact .inr ⟨hcarry, rfl⟩
  · contradiction

theorem ofNat_of_log2_le {n : Nat} (h : n ≠ 0) (hlog : n.log2 ≤ 52) :
    ofNat n = finite false (n * 2 ^ (52 - n.log2)) (n.log2 - 52) := by
  have hquantum := quantum_one h
  have hbits : (-quantum n 1).toNat = 52 - n.log2 := by omega
  have hnone : (quantum n 1).toNat = 0 := by omega
  have hbelow : n * 2 ^ (52 - n.log2) < 2 ^ 53 := by
    calc n * 2 ^ (52 - n.log2)
        < 2 ^ (n.log2 + 1) * 2 ^ (52 - n.log2) :=
          Nat.mul_lt_mul_of_pos_right Nat.lt_log2_self (Nat.two_pow_pos _)
      _ = 2 ^ 53 := by
          rw [← Nat.pow_add]
          congr 1
          omega
  have hsignificand :
      roundQuotient (n * 2 ^ (-quantum n 1).toNat)
        (1 * 2 ^ (quantum n 1).toNat) =
      n * 2 ^ (52 - n.log2) := by
    rw [hbits, hnone]
    exact roundQuotient_one _
  have hgreatest : quantum n 1 ≤ greatestExponent := by
    rw [hquantum, greatestExponent]
    omega
  simp only [ofNat, ofRatio, h, if_false, hsignificand]
  rw [if_neg hbelow.ne, if_pos hgreatest, hquantum]

private theorem isPositiveWhole_ofNat_of_log2_lt {n : Nat} (h : n ≠ 0)
    (hlog : n.log2 < 52) :
    (ofNat n).IsPositiveWhole := by
  have hbits : (-(n.log2 - 52 : Int)).toNat = 52 - n.log2 := by omega
  rw [ofNat_of_log2_le h hlog.le]
  refine ⟨rfl, Nat.mul_ne_zero h (Nat.two_pow_pos _).ne', ?_⟩
  rw [hbits]
  exact Nat.dvd_mul_left _ _

private theorem isPositiveWhole_ofNat_of_le_log2 {n : Nat} (h : n ≠ 0)
    (hlog : 52 ≤ n.log2) (hfinite : (ofNat n).isFinite = true) :
    (ofNat n).IsPositiveWhole := by
  have hquantum := quantum_one h
  have hnone : (-quantum n 1).toNat = 0 := by omega
  have hpower : 2 ^ (quantum n 1).toNat ≤ n :=
    Nat.le_trans (Nat.pow_le_pow_right (by decide) (by omega))
      (Nat.log2_self_le h)
  have hsignificand :
      roundQuotient (n * 2 ^ (-quantum n 1).toNat)
        (1 * 2 ^ (quantum n 1).toNat) =
      roundQuotient n (2 ^ (quantum n 1).toNat) := by
    rw [hnone, Nat.pow_zero, Nat.mul_one, Nat.one_mul]
  have hpositive : roundQuotient n (2 ^ (quantum n 1).toNat) ≠ 0 := by
    have hquotient := div_le_roundQuotient n (2 ^ (quantum n 1).toNat)
    have hdiv : 0 < n / 2 ^ (quantum n 1).toNat :=
      Nat.div_pos hpower (Nat.two_pow_pos _)
    omega
  rw [ofNat] at hfinite ⊢
  rcases ofRatio_eq_of_isFinite h hfinite hsignificand with
    ⟨-, hvalue⟩ | ⟨-, hvalue⟩
  · rw [hvalue]
    exact isPositiveWhole_of_nonneg (by decide) (by omega)
  · rw [hvalue]
    exact isPositiveWhole_of_nonneg hpositive (by omega)

theorem isPositiveWhole_ofNat {n : Nat} (h : n ≠ 0)
    (hfinite : (ofNat n).isFinite = true) :
    (ofNat n).IsPositiveWhole := by
  rcases Nat.lt_or_ge n.log2 52 with hlog | hlog
  · exact isPositiveWhole_ofNat_of_log2_lt h hlog
  · exact isPositiveWhole_ofNat_of_le_log2 h hlog hfinite

theorem toInt?_ofNat {n : Nat} (h : n ≤ 2 ^ 53) :
    (ofNat n).toInt? = some (n : Int) := by
  rcases Nat.eq_or_lt_of_le h with rfl | hlt
  · decide +kernel
  by_cases hn : n = 0
  · subst hn
    rw [ofNat_zero, toInt?_zero]
    rfl
  have hlog : n.log2 ≤ 52 := Nat.le_of_lt_succ ((Nat.log2_lt hn).2 hlt)
  have hnone : (n.log2 - 52 : Int).toNat = 0 := by omega
  rw [ofNat_of_log2_le hn hlog]
  simp [toInt?, hnone]

end Double

end SnippetGrowth
