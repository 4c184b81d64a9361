import Mathlib.Tactic.LinearCombination
import SnippetGrowth.Proofs.Logarithms
import SnippetGrowth.Proofs.Representable

/-!
# Rounded once to the nearest double

A quotient in the range of doubles is rounded to a double that no other one is
nearer than, and to the one with an even significand where two are as near.  On
the multiples of its quantum this is rounding to a whole number; the doubles
that are no such multiples lie below all quotients of that quantum.
-/

namespace SnippetGrowth

/-! ## Rounded quotients -/

private theorem roundQuotient_bounds (n : Nat) {d : Nat} (hd : 0 < d) :
    2 * (roundQuotient n d * d) ≤ 2 * n + d ∧
    2 * n ≤ 2 * (roundQuotient n d * d) + d ∧
      (2 * (roundQuotient n d * d) = 2 * n + d ∨
        2 * n = 2 * (roundQuotient n d * d) + d →
        roundQuotient n d % 2 = 0) := by
  have hsplit : n / d * d + n % d = n := Nat.div_add_mod' n d
  have hrest := Nat.mod_lt n hd
  have hnext : (n / d + 1) * d = n / d * d + d := Nat.succ_mul _ _
  simp only [roundQuotient]
  split_ifs with hbelow habove
  · omega
  · rw [hnext]
    omega
  · rcases Nat.mod_two_eq_zero_or_one (n / d) with heven | hodd
    · rw [heven, Nat.add_zero]
      omega
    · rw [hodd, hnext]
      omega

namespace Double

/-! ## Multiples of a power of two -/

section

variable {n d : Nat} (hd : d ≠ 0) (e : Int)

include hd

private theorem two_mul_abs_multiples_sub_le :
    2 * |(multiples e n d : ℝ) - n / d / 2 ^ e| ≤ 1 ∧
      (2 * |(multiples e n d : ℝ) - n / d / 2 ^ e| = 1 →
        multiples e n d % 2 = 0) := by
  have hpositive : 0 < d * 2 ^ e.toNat :=
    Nat.mul_pos (Nat.pos_of_ne_zero hd) (Nat.two_pow_pos _)
  have hbounds := roundQuotient_bounds (n * 2 ^ (-e).toNat) hpositive
  have hmultiples : roundQuotient (n * 2 ^ (-e).toNat) (d * 2 ^ e.toNat) =
      multiples e n d := rfl
  rw [hmultiples] at hbounds
  rw [← cast_scaled_div]
  generalize n * 2 ^ (-e).toNat = numerator at *
  generalize d * 2 ^ e.toNat = denominator at *
  generalize multiples e n d = m at *
  obtain ⟨habove, hbelow, heven⟩ := hbounds
  have hdenominator : (0 : ℝ) < denominator := by exact_mod_cast hpositive
  obtain ⟨t, ht⟩ : ∃ t : ℝ, t = numerator / denominator := ⟨_, rfl⟩
  have hnumerator : (numerator : ℝ) = t * denominator := by
    rw [ht, div_mul_cancel₀ _ hdenominator.ne']
  rw [← Nat.cast_le (α := ℝ)] at habove hbelow
  rw [← Nat.cast_inj (R := ℝ), ← Nat.cast_inj (R := ℝ)] at heven
  push_cast [hnumerator] at habove hbelow heven
  rw [← ht]
  have hupper : 2 * ((m : ℝ) - t) ≤ 1 :=
    le_of_mul_le_mul_right (by linear_combination habove) hdenominator
  have hlower : -1 ≤ 2 * ((m : ℝ) - t) :=
    le_of_mul_le_mul_right (by linear_combination hbelow) hdenominator
  constructor
  · rcases abs_cases ((m : ℝ) - t) with ⟨habs, -⟩ | ⟨habs, -⟩ <;> rw [habs] <;>
      linarith
  · intro hhalf
    refine heven ?_
    rcases abs_cases ((m : ℝ) - t) with ⟨habs, -⟩ | ⟨habs, -⟩ <;>
      rw [habs] at hhalf
    · exact .inl (by linear_combination denominator * hhalf)
    · exact .inr (by linear_combination denominator * hhalf)

theorem abs_multiples_sub_le (k : Int) :
    |(multiples e n d : ℝ) - n / d / 2 ^ e| ≤ |(k : ℝ) - n / d / 2 ^ e| ∧
      (|(k : ℝ) - n / d / 2 ^ e| = |(multiples e n d : ℝ) - n / d / 2 ^ e| →
        k = multiples e n d ∨ multiples e n d % 2 = 0) := by
  obtain ⟨hhalf, heven⟩ := two_mul_abs_multiples_sub_le hd e
  by_cases hk : k = multiples e n d
  · subst hk
    exact ⟨by simp, fun _ => .inl rfl⟩
  have hapart : (1 : ℝ) ≤ |(k : ℝ) - multiples e n d| := by
    have hne : k - multiples e n d ≠ 0 := sub_ne_zero.2 hk
    exact_mod_cast Int.one_le_abs hne
  have htriangle := abs_sub_le (k : ℝ) (n / d / 2 ^ e) (multiples e n d)
  rw [abs_sub_comm (n / d / 2 ^ e : ℝ)] at htriangle
  refine ⟨by linarith, fun heq => .inr (heven ?_)⟩
  linarith

end

/-! ## Doubles as real numbers -/

noncomputable def toReal : Double → ℝ
  | finite negative m e =>
      (if negative then -1 else 1) *
        ((m * 2 ^ e.toNat : Nat) / (2 ^ (-e).toNat : Nat))
  | _ => 0

theorem toReal_finite (m : Nat) (e : Int) :
    (finite false m e).toReal = m * 2 ^ e := by
  rw [toReal, if_neg Bool.false_ne_true, one_mul, cast_ratio]

def IsInRange (x : Double) : Prop := x.isFinite = true ∧ x.IsRepresentable

def HasEvenSignificand : Double → Prop
  | finite _ m _ => m % 2 = 0
  | _ => False

/-- Whether a number is rounded to a double: no other one is nearer, and if
another one is as near, the significand is even. -/
structure IsNearest (x : Double) (r : ℝ) : Prop where
  isInRange : x.IsInRange
  abs_sub_le : ∀ y : Double, y.IsInRange → |x.toReal - r| ≤ |y.toReal - r|
  even : ∀ y : Double, y.IsInRange → |y.toReal - r| = |x.toReal - r| →
    y.toReal = x.toReal ∨ x.HasEvenSignificand

theorem multiple_or_small {y : Double} (h : y.IsInRange) (e : Int) :
    (∃ k : Int, y.toReal = k * 2 ^ e) ∨ -1074 < e ∧
      y.toReal < 2 ^ 52 * 2 ^ e := by
  cases y with
  | nan => exact absurd h.1 (by decide)
  | infinite negative => exact absurd h.1 (by simp [isFinite])
  | finite negative m f =>
      obtain ⟨⟨hshort, hleast, -⟩, -⟩ := h.2
      -- A double of a smaller quantum may lie between two multiples, but then
      -- it is small.
      rcases le_or_gt e f with hef | hef
      · refine .inl ⟨(if negative then -1 else 1) * (m * 2 ^ (f - e).toNat : Nat),
          ?_⟩
        have hpower : (2 : ℝ) ^ f = 2 ^ (f - e).toNat * 2 ^ e := by
          rw [two_zpow_mul, Int.toNat_of_nonneg (by omega), sub_add_cancel]
        rw [toReal, cast_ratio, hpower]
        split <;> push_cast <;> ring
      · refine .inr ⟨by omega, ?_⟩
        have hmagnitude : (m * 2 ^ f : ℝ) < 2 ^ 52 * 2 ^ e := by
          calc (m * 2 ^ f : ℝ) < 2 ^ 53 * 2 ^ f := by
                gcongr
                exact_mod_cast hshort
            _ ≤ 2 ^ 52 * 2 ^ e := two_pow_mul_le hef
        have hpositive : (0 : ℝ) ≤ m * 2 ^ f := by positivity
        rw [toReal, cast_ratio]
        split <;> linarith

/-! ## Rounding to the nearest -/

variable {n d : Nat}

private theorem two_pow_le_of_quantum (hn : n ≠ 0) (hd : d ≠ 0)
    (h : -1074 < quantum n d) :
    (2 : ℝ) ^ 52 * 2 ^ quantum n d ≤ n / d := by
  have hexponent : (52 : Nat) + quantum n d = binaryExponent n d := by
    rw [quantum_eq] at h ⊢
    omega
  rw [two_zpow_mul, hexponent]
  exact (binaryExponent_bounds hn hd).1

private theorem abs_scaled_sub (a q : ℝ) (e : Int) :
    |a * 2 ^ e - q| = |a - q / 2 ^ e| * 2 ^ e := by
  have hpower : (0 : ℝ) < 2 ^ e := by positivity
  rw [← abs_of_pos hpower, ← abs_mul, abs_of_pos hpower, sub_mul,
    div_mul_cancel₀ _ hpower.ne']

private theorem abs_nearest_sub_le (hd : d ≠ 0) (k : Int) :
    |nearest n d - n / d| ≤ |k * 2 ^ quantum n d - (n / d : ℝ)| ∧
      (|k * 2 ^ quantum n d - (n / d : ℝ)| = |nearest n d - n / d| →
        k = multiples (quantum n d) n d ∨
        multiples (quantum n d) n d % 2 = 0) := by
  have hpower : (0 : ℝ) < 2 ^ quantum n d := by positivity
  obtain ⟨hle, heven⟩ := abs_multiples_sub_le (n := n) hd (quantum n d) k
  rw [nearest, abs_scaled_sub, abs_scaled_sub]
  exact ⟨mul_le_mul_of_nonneg_right hle hpower.le,
    fun heq => heven (mul_right_cancel₀ hpower.ne' heq)⟩

private theorem abs_nearest_sub_le_of_isInRange (hn : n ≠ 0) (hd : d ≠ 0)
    {y : Double} (h : y.IsInRange) :
    |nearest n d - n / d| ≤ |y.toReal - n / d| ∧
      (|y.toReal - n / d| = |nearest n d - n / d| →
        y.toReal = nearest n d ∨ multiples (quantum n d) n d % 2 = 0) := by
  rcases multiple_or_small h (quantum n d) with ⟨k, hk⟩ | ⟨hleast, hsmall⟩
  · obtain ⟨hle, heven⟩ := abs_nearest_sub_le (n := n) hd k
    rw [hk]
    refine ⟨hle, fun heq => (heven heq).imp_left fun hcount => ?_⟩
    rw [hcount, nearest, Int.cast_natCast]
  · have hlong := two_pow_le_of_quantum hn hd hleast
    have hle := (abs_nearest_sub_le (n := n) hd (2 ^ 52 : Nat)).1
    rw [Int.cast_natCast, Nat.cast_pow, Nat.cast_ofNat,
      abs_of_nonpos (sub_nonpos.2 hlong)] at hle
    have hfar : |y.toReal - n / d| = n / d - y.toReal := by
      rw [abs_of_nonpos (by linarith), neg_sub]
    rw [hfar]
    exact ⟨by linarith, fun heq => absurd heq (by linarith)⟩

theorem toReal_ofRatio (hd : d ≠ 0)
    (hfinite : (ofRatio false n d).isFinite = true) :
    (ofRatio false n d).toReal = nearest n d := by
  rcases ofRatio_cases false n hd with ⟨m, e, hdouble, hvalue, -⟩ | ⟨-, hdouble⟩
  · rw [hdouble, toReal_finite, hvalue]
  · rw [hdouble] at hfinite
    exact absurd hfinite Bool.false_ne_true

private theorem hasEvenSignificand_ofRatio (hn : n ≠ 0)
    (hfinite : (ofRatio false n d).isFinite = true)
    (heven : multiples (quantum n d) n d % 2 = 0) :
    (ofRatio false n d).HasEvenSignificand := by
  rw [ofRatio_eq false hn] at hfinite ⊢
  split_ifs at hfinite ⊢
  · exact (by decide : 2 ^ 52 % 2 = 0)
  · exact absurd hfinite Bool.false_ne_true
  · exact heven
  · exact absurd hfinite Bool.false_ne_true

/-- A quotient that has a finite double is rounded to the nearest one. -/
theorem isNearest_ofRatio (hd : d ≠ 0)
    (hfinite : (ofRatio false n d).isFinite = true) :
    (ofRatio false n d).IsNearest (n / d) := by
  have hreal := toReal_ofRatio hd hfinite
  refine ⟨⟨hfinite, isRepresentable_ofRatio false n hd⟩, fun y hy => ?_,
    fun y hy heq => ?_⟩
  all_goals rcases eq_or_ne n 0 with rfl | hn
  · simp [hreal, nearest_zero]
  · rw [hreal]
    exact (abs_nearest_sub_le_of_isInRange hn hd hy).1
  · left
    simpa [hreal, nearest_zero] using heq
  · rw [hreal] at heq ⊢
    exact ((abs_nearest_sub_le_of_isInRange hn hd hy).2 heq).imp_right
      (hasEvenSignificand_ofRatio hn hfinite)

/-! ## Whole numbers -/

theorem isNearest_ofNat (hfinite : (ofNat n).isFinite = true) :
    (ofNat n).IsNearest n := by
  rw [ofNat] at hfinite ⊢
  simpa using isNearest_ofRatio one_ne_zero hfinite

/-- The middle between the greatest double and the power of two behind it, which
is rounded up. -/
def leastOverflow : Nat := 2 ^ 1024 - 2 ^ 970

theorem isFinite_ofNat_iff : (ofNat n).isFinite = true ↔ n < leastOverflow := by
  have hlast : (ofNat (leastOverflow - 1)).isFinite = true := by decide +kernel
  have hfirst : (ofNat leastOverflow).isFinite = false := by decide +kernel
  constructor
  · intro hfinite
    refine Nat.lt_of_not_le fun hlarge => ?_
    rw [isFinite_ofNat_of_le hlarge hfinite] at hfirst
    exact Bool.noConfusion hfirst
  · intro hsmall
    exact isFinite_ofNat_of_le (Nat.le_sub_one_of_lt hsmall) hlast

theorem toReal_ofNat_le {m : Nat} (hnm : n ≤ m)
    (hfinite : (ofNat m).isFinite = true) :
    (ofNat n).toReal ≤ (ofNat m).toReal := by
  have hless := isFinite_ofNat_of_le hnm hfinite
  rw [ofNat, toReal_ofRatio one_ne_zero hless, ofNat,
    toReal_ofRatio one_ne_zero hfinite]
  refine nearest_le_nearest one_ne_zero one_ne_zero ?_
  gcongr

end Double

end SnippetGrowth
