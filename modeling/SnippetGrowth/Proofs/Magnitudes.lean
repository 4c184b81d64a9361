import SnippetGrowth.Proofs.CriticalExponents

/-!
# Magnitudes of logarithms

A whole number of at most `digitLimit` digits has a finite logarithm, and one
that is far from both ends of the range of doubles.  The quotient of two such
logarithms is therefore finite too, and it is not rounded to zero.

Bounds are powers of two: these are doubles themselves, so rounding keeps them.
-/

namespace SnippetGrowth

namespace Double

/-! ## Numbers below a power of two -/

theorem nearest_of_eq_two_zpow {n d : Nat} {e : Int} (hd : d ≠ 0) (he : -1022 ≤ e)
    (h : (n / d : ℝ) = 2 ^ e) : nearest n d = 2 ^ e := by
  have hnormal : IsNormal (2 ^ 52) (e - 52) :=
    ⟨by norm_num, by omega, .inl le_rfl⟩
  rw [nearest_of_isNormal hd hnormal, h]
  rw [h, Nat.cast_pow, Nat.cast_ofNat, two_zpow_mul]
  congr 1
  push_cast
  omega

def IsWithin (x : Double) (bits : Nat) : Prop :=
  ∃ negative m e, x = finite negative m e ∧
    m * 2 ^ e.toNat ≤ 2 ^ bits * 2 ^ (-e).toNat

section

variable {x y : Double} {j k : Nat}

theorem isWithin_iff : x.IsWithin k ↔
    ∃ negative m e, x = finite negative m e ∧ (m * 2 ^ e : ℝ) ≤ 2 ^ k := by
  have hcast : ∀ (m : Nat) (e : Int), (m * 2 ^ e : ℝ) ≤ 2 ^ k ↔
      m * 2 ^ e.toNat ≤ 2 ^ k * 2 ^ (-e).toNat := by
    intro m e
    rw [← cast_ratio, div_le_iff₀ (by positivity)]
    exact_mod_cast Iff.rfl
  simp only [IsWithin, hcast]

theorem IsWithin.mono (h : x.IsWithin k) (hle : k ≤ j) : x.IsWithin j := by
  obtain ⟨negative, m, e, rfl, hvalue⟩ := isWithin_iff.1 h
  refine isWithin_iff.2 ⟨negative, m, e, rfl, hvalue.trans ?_⟩
  exact pow_le_pow_right₀ one_le_two hle

theorem IsSmall.isWithin (h : x.IsSmall) : x.IsWithin 0 := by
  obtain ⟨negative, m, e, rfl, hvalue⟩ := h.exists_eq
  exact isWithin_iff.2 ⟨negative, m, e, rfl, hvalue.trans_eq (pow_zero 2).symm⟩

theorem isWithin_ofRatio (negative : Bool) {n d : Nat} (hd : d ≠ 0)
    (hk : k < 1024) (h : (n / d : ℝ) ≤ 2 ^ k) :
    (ofRatio negative n d).IsWithin k := by
  have hpower : nearest (2 ^ k) 1 = 2 ^ k := by
    have hvalue :=
      nearest_of_eq_two_zpow (n := 2 ^ k) (e := k) one_ne_zero (by omega)
        (by simp)
    rw [hvalue, zpow_natCast]
  have hnearest : nearest n d ≤ 2 ^ k := by
    rw [← hpower]
    refine nearest_le_nearest hd one_ne_zero (h.trans_eq ?_)
    simp
  rcases ofRatio_cases negative n hd with ⟨m, e, hdouble, hvalue, -⟩ | ⟨hpast, -⟩
  · exact isWithin_iff.2 ⟨negative, m, e, hdouble, hvalue.trans_le hnearest⟩
  · exact absurd (hpast.trans hnearest) (pow_lt_pow_right₀ one_lt_two hk).not_ge

theorem isWithin_ofScaled (negative : Bool) {m : Nat} {e : Int} (hk : k < 1024)
    (h : (m * 2 ^ e : ℝ) ≤ 2 ^ k) : (ofScaled negative m e).IsWithin k := by
  rw [← cast_ratio] at h
  exact isWithin_ofRatio negative (Nat.two_pow_pos _).ne' hk h

private theorem cast_natAbs_aligned (negative : Bool) {m : Nat} {e base : Int}
    (h : base ≤ e) :
    ((aligned negative m e base).natAbs : ℝ) * 2 ^ base = m * 2 ^ e := by
  have hsign : (aligned negative m e base).natAbs =
      (aligned false m e base).natAbs := by
    cases negative <;> simp [aligned]
  have hnonneg : 0 ≤ aligned false m e base := by
    rw [aligned, if_neg (by decide)]
    positivity
  rw [hsign, ← cast_aligned h, Nat.cast_natAbs, abs_of_nonneg hnonneg]

theorem IsWithin.add (hx : x.IsWithin k) (hy : y.IsWithin k) (hk : k + 1 < 1024) :
    (x.add y).IsWithin (k + 1) := by
  obtain ⟨s, m, e, rfl, hleft⟩ := isWithin_iff.1 hx
  obtain ⟨t, n, f, rfl, hright⟩ := isWithin_iff.1 hy
  set base := min e f with hbase
  set sum := aligned s m e base + aligned t n f base with hsum
  have hmagnitude : (sum.natAbs * 2 ^ base : ℝ) ≤ 2 ^ (k + 1) := by
    have hparts :
        sum.natAbs ≤
          (aligned s m e base).natAbs + (aligned t n f base).natAbs :=
      Int.natAbs_add_le _ _
    calc (sum.natAbs * 2 ^ base : ℝ)
        ≤ ((aligned s m e base).natAbs + (aligned t n f base).natAbs) *
            2 ^ base := by
          gcongr
          exact_mod_cast hparts
      _ = m * 2 ^ e + n * 2 ^ f := by
          rw [add_mul, cast_natAbs_aligned s (min_le_left e f),
            cast_natAbs_aligned t (min_le_right e f)]
      _ ≤ 2 ^ k + 2 ^ k := add_le_add hleft hright
      _ = 2 ^ (k + 1) := by ring
  change IsWithin (if sum = 0 then _ else ofScaled _ sum.natAbs base) _
  split
  · exact isWithin_iff.2 ⟨_, 0, leastExponent, rfl, by simp⟩
  · exact isWithin_ofScaled _ hk hmagnitude

theorem IsWithin.mul (hx : x.IsWithin j) (hy : y.IsWithin k)
    (hjk : j + k < 1024) :
    (x.mul y).IsWithin (j + k) := by
  obtain ⟨s, m, e, rfl, hleft⟩ := isWithin_iff.1 hx
  obtain ⟨t, n, f, rfl, hright⟩ := isWithin_iff.1 hy
  refine isWithin_ofScaled _ hjk ?_
  calc ((m * n : Nat) * 2 ^ (e + f) : ℝ) = m * 2 ^ e * (n * 2 ^ f) := by
        rw [zpow_add₀ two_ne_zero]
        push_cast
        ring
    _ ≤ 2 ^ j * 2 ^ k := by gcongr
    _ = 2 ^ (j + k) := (pow_add 2 j k).symm

end

/-! ## Logarithms -/

private theorem isWithin_logQuotient {n d : Nat} (hd : 0 < d) (hone : d ≤ n)
    (hrange : (n / d : ℝ) < 2 ^ 1024) : (logQuotient n d).IsWithin 10 := by
  rcases hone.eq_or_lt with rfl | hlt
  · have hzero : logQuotient d d = finite false 0 leastExponent := by
      simp [logQuotient, logBy, zero, signedZero]
    rw [hzero]
    exact isWithin_iff.2 ⟨false, 0, leastExponent, rfl, by simp⟩
  · obtain ⟨bits, -, hvalue, -⟩ :=
      exists_roundFixed_eq false (fixedLog · n d) precisions getLast?_precisions
    have hratio : (0 : ℝ) < n / d := by
      have hn : (0 : ℝ) < n := by exact_mod_cast hd.trans hlt
      positivity
    rw [logQuotient_eq_roundFixed hlt, hvalue]
    refine isWithin_ofRatio false (Nat.two_pow_pos _).ne' (by norm_num) ?_
    calc (fixedLog bits n d / (2 ^ bits : Nat) : ℝ)
      _ ≤ Real.log (n / d) := fixedLog_div_le bits hd hone
      _ ≤ Real.log (2 ^ 1024) := Real.log_le_log hratio hrange.le
      _ = 1024 * Real.log 2 := by rw [Real.log_pow, Nat.cast_ofNat]
      _ ≤ 1024 * (2 - 1) := by gcongr; exact Real.log_le_sub_one_of_pos two_pos
      _ = 2 ^ 10 := by norm_num

private theorem isWithin_ln_ofNat {n : Nat} (hn : n ≠ 0)
    (hfinite : (ofNat n).isFinite = true) :
    (ln (ofNat n)).IsWithin 10 := by
  obtain ⟨m, e, k, hdouble, hm, hk, hvalue, -, hrange⟩ :=
    exists_ofNat_eq hn hfinite
  rw [← cast_ratio] at hvalue
  rw [hdouble, ln_finite hm]
  refine isWithin_logQuotient (Nat.two_pow_pos _) ?_ (hvalue ▸ hrange)
  have hone : (1 : ℝ) ≤ k := by exact_mod_cast Nat.pos_of_ne_zero hk
  rw [← hvalue, one_le_div (by positivity)] at hone
  exact_mod_cast hone

private theorem snd_mantissa_le (n : Nat) : (mantissa n).2 ≤ n.log2 + 2 := by
  unfold mantissa
  dsimp only
  split <;> dsimp only <;> omega

private theorem log2_lt_of_lt_digitLimit {n : Nat} (hn : n ≠ 0)
    (h : n < 10 ^ digitLimit) :
    n.log2 < 4 * digitLimit := by
  rw [Nat.log2_lt hn, Nat.pow_mul]
  exact h.trans_le (Nat.pow_le_pow_left (by decide) _)

theorem isWithin_logNat {n : Nat} (hn : n ≠ 0) (h : n < 10 ^ digitLimit) :
    (logNat ln n).IsWithin 16 := by
  unfold logNat
  split
  · next hfinite => exact (isWithin_ln_ofNat hn hfinite).mono (by decide)
  · have htwo : (ln (ofNat 2)).IsWithin 0 := by
      have hlog : ln (ofNat 2) = finite false 6243314768165359 (-53) := by
        decide +kernel
      exact isWithin_iff.2 ⟨false, _, _, hlog, by norm_num⟩
    have hexponent : (ofNat (mantissa n).2).IsWithin 15 := by
      have hbits := log2_lt_of_lt_digitLimit hn h
      have hmantissa := snd_mantissa_le n
      have hlimit : digitLimit = 4300 := rfl
      refine isWithin_ofRatio false one_ne_zero (by norm_num) ?_
      rw [Nat.cast_one, div_one]
      exact_mod_cast (by omega : (mantissa n).2 ≤ 2 ^ 15)
    have hproduct := htwo.mul hexponent (by norm_num)
    exact ((isSmall_ln_mantissa hn).isWithin.mono (by norm_num)).add hproduct
      (by norm_num)

/-! ## Quotients of logarithms -/

private theorem exists_finite_of_isAtLeast_half {z : Double}
    (hlow : z.IsAtLeast half) (hhigh : z.IsWithin 16) :
    ∃ m e, z = finite false m e ∧ (1 / 2 : ℝ) ≤ m * 2 ^ e ∧
      (m * 2 ^ e : ℝ) ≤ 2 ^ 16 := by
  obtain ⟨negative, m, e, rfl, hbelow⟩ := isWithin_iff.1 hhigh
  rcases isAtLeast_finite_iff.1 hlow with hinfinite | ⟨n, f, hz, habove⟩
  · contradiction
  · cases hz
    refine ⟨m, e, rfl, le_trans ?_ habove, hbelow⟩
    norm_num

private theorem isFinite_ofRatio {n d : Nat} (hd : d ≠ 0)
    (hhigh : (n / d : ℝ) ≤ 2 ^ 17) :
    (ofRatio false n d).isFinite = true := by
  obtain ⟨negative, m, e, hfinite, -⟩ :=
    isWithin_ofRatio false hd (by norm_num) hhigh
  rw [hfinite]
  rfl

private theorem isPositive_ofRatio {n d : Nat} (hd : d ≠ 0)
    (hlow : (2 ^ (-17 : Int) : ℝ) ≤ n / d) :
    (ofRatio false n d).isPositive = true := by
  have hpower : nearest 1 (2 ^ 17) = 2 ^ (-17 : Int) :=
    nearest_of_eq_two_zpow (by norm_num) (by norm_num) (by norm_num)
  have hnearest : (2 ^ (-17 : Int) : ℝ) ≤ nearest n d := by
    rw [← hpower]
    refine nearest_le_nearest (by norm_num) hd (le_trans ?_ hlow)
    norm_num
  rcases ofRatio_cases false n hd with ⟨m, e, hdouble, hvalue, -⟩ | ⟨-, hdouble⟩
  · rw [hdouble, isPositive, zero, signedZero, lt_finite_iff, hvalue]
    refine lt_of_lt_of_le ?_ hnearest
    norm_num
  · rw [hdouble]
    rfl

theorem div_of_isWithin {x y : Double} (hx : x.IsAtLeast half)
    (hx' : x.IsWithin 16) (hy : y.IsAtLeast half) (hy' : y.IsWithin 16) :
    (x.div y).isFinite = true ∧ (x.div y).isPositive = true := by
  obtain ⟨m, e, rfl, hmlow, hmhigh⟩ := exists_finite_of_isAtLeast_half hx hx'
  obtain ⟨n, f, rfl, hnlow, hnhigh⟩ := exists_finite_of_isAtLeast_half hy hy'
  have hn : n ≠ 0 := by
    rintro rfl
    norm_num at hnlow
  have hdivisor : n * 2 ^ (f - e).toNat ≠ 0 :=
    Nat.mul_ne_zero hn (Nat.two_pow_pos _).ne'
  have hratio := cast_ratio_div m n e f
  rw [div_finite hn]
  constructor
  · refine isFinite_ofRatio hdivisor ?_
    rw [hratio]
    calc (m * 2 ^ e / (n * 2 ^ f) : ℝ) ≤ 2 ^ 16 / (1 / 2) := by gcongr
      _ = 2 ^ 17 := by norm_num
  · refine isPositive_ofRatio hdivisor ?_
    rw [hratio]
    calc (2 ^ (-17 : Int) : ℝ) = 1 / 2 / 2 ^ 16 := by norm_num
      _ ≤ m * 2 ^ e / (n * 2 ^ f) := by gcongr

end Double

end SnippetGrowth
