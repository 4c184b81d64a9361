import SnippetGrowth.Proofs.Exponents
import SnippetGrowth.Proofs.Logarithms

/-!
# Critical exponents

Every whole number from two on has a logarithm of at least one half, so a
reduction factor of one is the only one without an exponent of its own: a
single branch then has none, and several branches have an infinite one.

For a reduction factor from two on, more branches have no lesser exponent,
provided that they have no lesser logarithm.
-/

namespace SnippetGrowth

/-! ## Logarithms of factors -/

namespace Double

theorem IsAtLeast.of_half {x : Double} (h : x.IsAtLeast half) :
    x.isZero = false ∧ x.isNan = false ∧ x.isNegative = false := by
  rcases isAtLeast_finite_iff.1 h with rfl | ⟨m, e, rfl, hvalue⟩
  · exact ⟨rfl, rfl, rfl⟩
  · refine ⟨?_, rfl, rfl⟩
    cases m with
    | zero => norm_num at hvalue
    | succ m => rfl

end Double

namespace Number

theorem ln_whole {n : Nat} (hn : n ≠ 0) :
    (whole n).ln = Double.logNat Double.ln n := by
  simp [ln, Nat.pos_of_ne_zero hn]

theorem ln_one : (whole 1).ln = .zero := by decide

theorem isAtLeast_half_ln_whole {n : Nat} (hn : 2 ≤ n) :
    (whole n).ln.IsAtLeast .half := by
  rw [ln_whole (by omega)]
  exact Double.isAtLeast_half_logNat hn

def IsAtLeastTwo : Number → Prop
  | whole n => 2 ≤ n
  | real x => x.IsAtLeast (Double.ofNat 2)

theorem IsAtLeastTwo.ln {number : Number} (h : number.IsAtLeastTwo) :
    number.ln.IsAtLeast .half := by
  cases number with
  | whole n =>
      have htwo : 2 ≤ n := h
      obtain ⟨n, rfl⟩ := Int.eq_ofNat_of_zero_le (by omega : 0 ≤ n)
      exact isAtLeast_half_ln_whole (by omega)
  | real x => exact Double.isAtLeast_half_ln h

end Number

/-! ## A reduction factor of one -/

theorem criticalExponent_one_one :
    criticalExponent (.whole 1) (.whole 1) = .nan := by decide

theorem criticalExponent_one {k : Nat} (hk : 2 ≤ k) :
    criticalExponent (.whole k) (.whole 1) = .infinite false := by
  have hone : (Number.whole 1).ln.isZero = true := by decide
  obtain ⟨hzero, hnan, hnegative⟩ := (Number.isAtLeast_half_ln_whole hk).of_half
  simp [criticalExponent, hone, hzero, hnan, hnegative]

/-! ## Reduction factors from two on -/

namespace Number

theorem isUnsigned_ln_whole {n : Nat} (hn : n ≠ 0) : (whole n).ln.IsUnsigned := by
  rcases eq_or_ne n 1 with rfl | hone
  · rw [Nat.cast_one, ln_one]
    rfl
  · exact (isAtLeast_half_ln_whole (by omega)).1

theorem lt_ln_whole_eq_false {n m : Nat} (hn : n ≠ 0) (hnm : n ≤ m)
    (hfinite : (Double.ofNat m).isFinite = true) :
    (whole m).ln.lt (whole n).ln = false := by
  rw [ln_whole hn, ln_whole (by omega), Double.logNat, Double.logNat,
    if_pos hfinite, if_pos (Double.isFinite_ofNat_of_le hnm hfinite)]
  exact Double.lt_ln_ofNat_eq_false hn hnm hfinite

end Number

namespace Double

theorem cast_ratio_div (m n : Nat) (e f : Int) :
    ((m * 2 ^ (e - f).toNat : Nat) : ℝ) / (n * 2 ^ (f - e).toNat : Nat) =
      m * 2 ^ e / (n * 2 ^ f) := by
  have hdifference : (2 : ℝ) ^ e / 2 ^ f =
      2 ^ (e - f).toNat / 2 ^ (f - e).toNat := by
    rw [← zpow_sub₀ two_ne_zero, two_zpow_eq, neg_sub]
  push_cast
  rw [mul_div_mul_comm, mul_div_mul_comm, hdifference]

theorem div_finite {m n : Nat} {e f : Int} (hn : n ≠ 0) :
    (finite false m e).div (finite false n f) =
      ofRatio false (m * 2 ^ (e - f).toNat) (n * 2 ^ (f - e).toNat) := by
  simp [div, hn]

private theorem exists_div_eq {x x' y : Double} (hx : x.IsUnsigned)
    (hx' : x'.IsUnsigned) (hy : y.IsAtLeast half) (hlt : x'.lt x = false)
    (hfinite : (x'.div y).isFinite = true) :
    ∃ m e m' e', x.div y = finite false m e ∧ x'.div y = finite false m' e' ∧
      (m * 2 ^ e : ℝ) ≤ m' * 2 ^ e' := by
  cases x' with
  | nan => exact hx'.elim
  | infinite negative => cases y <;> contradiction
  | finite negative p e =>
      obtain rfl : negative = false := hx'
      cases x with
      | nan => exact hx.elim
      | infinite negative =>
          obtain rfl : negative = false := hx
          contradiction
      | finite negative q f =>
          obtain rfl : negative = false := hx
          rw [Bool.eq_false_iff, Ne, lt_finite_iff, not_lt] at hlt
          rcases isAtLeast_finite_iff.1 hy with rfl | ⟨n, g, rfl, hvalue⟩
          · exact ⟨0, leastExponent, 0, leastExponent, rfl, rfl, le_rfl⟩
          · have hn : n ≠ 0 := by
              rintro rfl
              norm_num at hvalue
            have hdivisor : ∀ e : Int, n * 2 ^ (g - e).toNat ≠ 0 := fun e =>
              Nat.mul_ne_zero hn (Nat.two_pow_pos _).ne'
            have hnearest :
                nearest (q * 2 ^ (f - g).toNat) (n * 2 ^ (g - f).toNat) ≤
                nearest (p * 2 ^ (e - g).toNat) (n * 2 ^ (g - e).toNat) := by
              refine nearest_le_nearest (hdivisor f) (hdivisor e) ?_
              rw [cast_ratio_div, cast_ratio_div]
              gcongr
            rw [div_finite hn] at hfinite ⊢
            rw [div_finite hn]
            rcases ofRatio_cases false (p * 2 ^ (e - g).toNat) (hdivisor e) with
              ⟨m', e', hdouble', hvalue', hrange', -⟩ | ⟨-, hdouble'⟩
            · rcases ofRatio_cases false (q * 2 ^ (f - g).toNat) (hdivisor f) with
                ⟨m, d, hdouble, hvalue, -⟩ | ⟨hpast, -⟩
              · exact ⟨m, d, m', e', hdouble, hdouble', by rwa [hvalue, hvalue']⟩
              · exact absurd hrange' (hpast.trans hnearest).not_gt
            · rw [hdouble'] at hfinite
              contradiction

end Double

/-- For a reduction factor from two on, an exponent of more branches that is
finite is not below one of fewer branches with no greater logarithm. -/
theorem exists_criticalExponent_eq {n m : Nat} {reduction : Number} (hn : n ≠ 0)
    (hm : m ≠ 0) (hreduction : reduction.IsAtLeastTwo)
    (hlt : (Number.whole m).ln.lt (Number.whole n).ln = false)
    (hfinite : (criticalExponent (.whole m) reduction).isFinite = true) :
    ∃ p e p' e', criticalExponent (.whole n) reduction = .finite false p e ∧
      criticalExponent (.whole m) reduction = .finite false p' e' ∧
      (p * 2 ^ e : ℝ) ≤ p' * 2 ^ e' := by
  have hquotient : ∀ number,
      criticalExponent number reduction = number.ln.div reduction.ln := by
    intro number
    simp [criticalExponent, hreduction.ln.of_half.1]
  rw [hquotient] at hfinite ⊢
  rw [hquotient]
  exact Double.exists_div_eq (Number.isUnsigned_ln_whole hn)
    (Number.isUnsigned_ln_whole hm)
    hreduction.ln hlt hfinite

end SnippetGrowth
