import Mathlib.Analysis.SpecialFunctions.Log.Deriv
import SnippetGrowth.Double.Logarithm
import SnippetGrowth.Proofs.Nearest

/-!
# Logarithms in fixed point

A logarithm is computed as a power of two and a rest, whose logarithm is an odd
series.  Every cut goes down, so the fixed-point value is at most the real one.
A step of the series loses less than two units, and what all steps lose
together stays below what the rounding allows for.
-/

namespace SnippetGrowth.Double

/-! ## The odd series -/

noncomputable def oddTail (s : ℝ) (k : Nat) : ℝ :=
  tsum fun i : Nat => s ^ i / (k + 2 * i : Nat)

section

variable {s : ℝ} {k : Nat}

theorem oddTail_term_le (hs : 0 ≤ s) (hk : 1 ≤ k) (i : Nat) :
    s ^ i / (k + 2 * i : Nat) ≤ 1 / k * s ^ i := by
  have hpositive : (0 : ℝ) < k := by exact_mod_cast hk
  have hstep : (k : ℝ) ≤ (k + 2 * i : Nat) := by
    exact_mod_cast Nat.le_add_right k (2 * i)
  calc s ^ i / (k + 2 * i : Nat) ≤ s ^ i / k := by gcongr
    _ = 1 / k * s ^ i := by ring

theorem summable_oddTail (hs : 0 ≤ s) (hs' : s ≤ 1 / 9) (hk : 1 ≤ k) :
    Summable fun i : Nat => s ^ i / (k + 2 * i : Nat) := by
  have hgeometric : Summable fun i : Nat => s ^ i :=
    summable_geometric_of_lt_one hs (by linarith)
  refine Summable.of_nonneg_of_le
    (fun i => by positivity) (oddTail_term_le hs hk) ?_
  exact hgeometric.mul_left (1 / (k : ℝ))

theorem oddTail_nonneg (hs : 0 ≤ s) : 0 ≤ oddTail s k :=
  tsum_nonneg fun i => by positivity

theorem oddTail_eq (hs : 0 ≤ s) (hs' : s ≤ 1 / 9) (hk : 1 ≤ k) :
    oddTail s k = 1 / k + s * oddTail s (k + 2) := by
  unfold oddTail
  rw [(summable_oddTail hs hs' hk).tsum_eq_zero_add, ← tsum_mul_left]
  refine congrArg₂ (· + ·) ?_ (tsum_congr fun i => ?_)
  · rw [pow_zero, mul_zero, add_zero]
  · have hstep : k + 2 * (i + 1) = k + 2 + 2 * i := by ring
    rw [pow_succ', mul_div_assoc, hstep]

theorem oddTail_le (hs : 0 ≤ s) (hs' : s ≤ 1 / 9) (hk : 1 ≤ k) :
    oddTail s k ≤ 9 / 8 / k := by
  have hpositive : (0 : ℝ) < k := by exact_mod_cast hk
  have hinverse : (1 - s)⁻¹ ≤ 9 / 8 := by
    rw [inv_le_comm₀ (by linarith) (by norm_num)]
    linarith
  have hgeometric : Summable fun i : Nat => s ^ i :=
    summable_geometric_of_lt_one hs (by linarith)
  calc oddTail s k ≤ tsum fun i : Nat => 1 / k * s ^ i :=
        (summable_oddTail hs hs' hk).tsum_le_tsum (oddTail_term_le hs hk)
          (hgeometric.mul_left _)
    _ = (1 - s)⁻¹ / k := by
        rw [tsum_mul_left, tsum_geometric_of_lt_one hs (by linarith)]
        ring
    _ ≤ 9 / 8 / k := by gcongr

end

/-- The series of the inverse hyperbolic tangent. -/
theorem two_mul_oddTail {x : ℝ} (hx : 0 ≤ x) (hx' : x ≤ 1 / 3) :
    2 * x * oddTail (x ^ 2) 1 = Real.log ((1 + x) / (1 - x)) := by
  have habs : |x| < 1 := by
    rw [abs_of_nonneg hx]
    linarith
  rw [Real.log_div (by linarith) (by linarith),
    ← (Real.hasSum_log_sub_log_of_abs_lt_one habs).tsum_eq, oddTail,
    ← tsum_mul_left]
  refine tsum_congr fun i => ?_
  rw [← pow_mul, pow_succ]
  push_cast
  rw [add_comm (1 : ℝ)]
  ring

/-! ## The series in fixed point -/

theorem oddSeries_zero (bits square fuel k : Nat) :
    oddSeries bits square fuel 0 k = 0 := by
  cases fuel <;> simp [oddSeries]

theorem oddSeries_le {bits square : Nat} {s : ℝ} (hs : 0 ≤ s) (hs' : s ≤ 1 / 9)
    (hsquare : (square : ℝ) ≤ s * 2 ^ bits) (fuel power : Nat) {k : Nat}
    (hk : 1 ≤ k) :
    (oddSeries bits square fuel power k : ℝ) ≤ power * oddTail s k := by
  induction fuel generalizing power k with
  | zero =>
      have := oddTail_nonneg (k := k) hs
      rw [oddSeries, Nat.cast_zero]
      positivity
  | succ fuel ih =>
      rcases Nat.eq_zero_or_pos power with rfl | hpower
      · simp [oddSeries_zero]
      · have hnext : ((power * square / 2 ^ bits : Nat) : ℝ) ≤ power * s := by
          refine Nat.cast_div_le.trans ?_
          push_cast
          rw [div_le_iff₀ (by positivity), mul_assoc]
          gcongr
        have hlater := oddTail_nonneg (k := k + 2) hs
        rw [oddSeries, if_neg hpower.ne', oddTail_eq hs hs' hk]
        rw [Nat.cast_add]
        calc ((power / k : Nat) : ℝ) +
              oddSeries bits square fuel (power * square / 2 ^ bits) (k + 2)
            ≤ power / k + (power * square / 2 ^ bits : Nat) * oddTail s (k + 2) :=
              add_le_add Nat.cast_div_le (ih _ (by omega))
          _ ≤ power / k + power * s * oddTail s (k + 2) := by gcongr
          _ = power * (1 / k + s * oddTail s (k + 2)) := by ring

/-- A step loses less than one by cutting its term and less than one by cutting
the power, and the power is used up by as many steps as it has bits. -/
theorem le_oddSeries {bits square : Nat} {s : ℝ} (hs : 0 ≤ s) (hs' : s ≤ 1 / 9)
    (hsquare : s * 2 ^ bits ≤ square + 2) (hhalf : 2 * square ≤ 2 ^ bits)
    (fuel power : Nat) (hpower : 2 * power ≤ 2 ^ bits) (hfuel : power < 2 ^ fuel)
    {k : Nat} (hk : 1 ≤ k) :
    power * oddTail s k ≤ oddSeries bits square fuel power k + 2 * fuel := by
  induction fuel generalizing power k with
  | zero =>
      have hnone : power = 0 := by simpa using hfuel
      simp [hnone]
  | succ fuel ih =>
      set next := power * square / 2 ^ bits with hnext
      have hwidth : 0 < 2 ^ bits := Nat.two_pow_pos bits
      -- The power at least halves, so that one unit of fuel for each of its
      -- bits is enough.
      have hhalved : 2 * next ≤ power := by
        refine Nat.le_of_mul_le_mul_right ?_ hwidth
        calc 2 * next * 2 ^ bits = 2 * (next * 2 ^ bits) := by ring
          _ ≤ 2 * (power * square) :=
              Nat.mul_le_mul_left 2 (Nat.div_mul_le_self _ _)
          _ = power * (2 * square) := by ring
          _ ≤ power * 2 ^ bits := Nat.mul_le_mul_left power hhalf
      have hcut : power * s ≤ next + 2 := by
        have hquotient : power * square ≤ (next + 1) * 2 ^ bits := by
          rw [mul_comm (next + 1)]
          exact (Nat.lt_mul_div_succ _ hwidth).le
        refine le_of_mul_le_mul_right ?_ (show (0 : ℝ) < 2 ^ bits by positivity)
        calc power * s * 2 ^ bits = power * (s * 2 ^ bits) := by ring
          _ ≤ power * (square + 2) := by gcongr
          _ = (power * square : Nat) + (2 * power : Nat) := by
              push_cast
              ring
          _ ≤ ((next + 1) * 2 ^ bits : Nat) + (2 ^ bits : Nat) := by gcongr
          _ = (next + 2) * 2 ^ bits := by
              push_cast
              ring
      have htail : oddTail s (k + 2) ≤ 3 / 8 := by
        have hk3 : (3 : ℝ) ≤ (k + 2 : Nat) := by
          exact_mod_cast show 3 ≤ k + 2 by omega
        refine (oddTail_le hs hs' (by omega)).trans ?_
        rw [div_le_iff₀ (by positivity)]
        linarith
      have hlater := oddTail_nonneg (k := k + 2) hs
      have hterm : (power / k : ℝ) ≤ (power / k : Nat) + 1 := by
        rw [div_le_iff₀ (by positivity), mul_comm]
        exact_mod_cast (Nat.lt_mul_div_succ power hk).le
      have hseries : oddSeries bits square (fuel + 1) power k =
          power / k + oddSeries bits square fuel next (k + 2) := by
        rcases Nat.eq_zero_or_pos power with rfl | hpositive
        · simp [oddSeries_zero, hnext]
        · rw [oddSeries, if_neg hpositive.ne']
      have hrest := ih next (by omega) (by omega) (show 1 ≤ k + 2 by omega)
      rw [hseries, oddTail_eq hs hs' hk]
      push_cast
      calc power * (1 / k + s * oddTail s (k + 2))
          = power / k + power * s * oddTail s (k + 2) := by ring
        _ ≤ power / k + (next + 2) * oddTail s (k + 2) := by gcongr
        _ = power / k + next * oddTail s (k + 2) + 2 * oddTail s (k + 2) := by
            ring
        _ ≤ (power / k : Nat) + oddSeries bits square fuel next (k + 2) +
            2 * (fuel + 1) := by
            linarith

section

variable {z w : Nat} {x : ℝ}

theorem cut_square_le (hw : 0 < w) (hx : z ≤ x * w) :
    ((z * z / w : Nat) : ℝ) ≤ x ^ 2 * w := by
  have hpositive : (0 : ℝ) < w := by exact_mod_cast hw
  refine Nat.cast_div_le.trans ?_
  rw [div_le_iff₀ hpositive]
  push_cast
  calc (z * z : ℝ) ≤ x * w * (x * w) := mul_self_le_mul_self (by positivity) hx
    _ = x ^ 2 * w * w := by ring

private theorem le_cut_square (hw : 0 < w) (hthird : 3 * z ≤ w) (hx : 0 ≤ x)
    (hx' : x * w ≤ z + 1) :
    x ^ 2 * w ≤ (z * z / w : Nat) + 2 := by
  have hpositive : (0 : ℝ) < w := by exact_mod_cast hw
  have hquotient : (z * z : ℝ) ≤ w * ((z * z / w : Nat) + 1) := by
    exact_mod_cast (Nat.lt_mul_div_succ (z * z) hw).le
  have hmiddle : (2 * z + 1 : ℝ) ≤ w := by
    exact_mod_cast show 2 * z + 1 ≤ w by omega
  refine le_of_mul_le_mul_right ?_ hpositive
  calc x ^ 2 * w * w = x * w * (x * w) := by ring
    _ ≤ (z + 1) * (z + 1) := mul_self_le_mul_self (by positivity) hx'
    _ = z * z + (2 * z + 1) := by ring
    _ ≤ w * ((z * z / w : Nat) + 1) + w := add_le_add hquotient hmiddle
    _ = ((z * z / w : Nat) + 2) * w := by ring

private theorem two_mul_cut_square_le (hw : 0 < w) (hthird : 3 * z ≤ w) :
    2 * (z * z / w) ≤ w := by
  refine Nat.le_of_mul_le_mul_right ?_ hw
  calc 2 * (z * z / w) * w = 2 * (z * z / w * w) := by ring
    _ ≤ 2 * (z * z) := Nat.mul_le_mul_left 2 (Nat.div_mul_le_self _ _)
    _ ≤ 3 * z * (3 * z) := by nlinarith
    _ ≤ w * w := Nat.mul_le_mul hthird hthird

end

def ratioLoss (bits : Nat) : Nat := 4 * bits + 3

theorem logOfRatio_bounds (bits : Nat) {n d : Nat} (hd : 0 < d)
    (hthird : 3 * n ≤ d) :
    (logOfRatio bits n d : ℝ) ≤ 2 ^ bits * Real.log ((1 + n / d) / (1 - n / d)) ∧
      2 ^ bits * Real.log ((1 + n / d) / (1 - n / d)) ≤
        logOfRatio bits n d + ratioLoss bits := by
  set x : ℝ := n / d with hx
  set z := n * 2 ^ bits / d with hz
  have hwidth : 0 < 2 ^ bits := Nat.two_pow_pos bits
  have hdreal : (0 : ℝ) < d := by exact_mod_cast hd
  have hnonneg : 0 ≤ x := by positivity
  have hsmall : x ≤ 1 / 3 := by
    rw [hx, div_le_div_iff₀ hdreal (by norm_num)]
    have : (3 * n : ℝ) ≤ d := by exact_mod_cast hthird
    linarith
  have hzthird : 3 * z ≤ 2 ^ bits := by
    refine Nat.le_of_mul_le_mul_right ?_ hd
    calc 3 * z * d = 3 * (z * d) := by ring
      _ ≤ 3 * (n * 2 ^ bits) := Nat.mul_le_mul_left 3 (Nat.div_mul_le_self _ _)
      _ = 3 * n * 2 ^ bits := by ring
      _ ≤ d * 2 ^ bits := Nat.mul_le_mul_right _ hthird
      _ = 2 ^ bits * d := mul_comm _ _
  have hscaled : x * (2 ^ bits : Nat) = (n * 2 ^ bits : Nat) / d := by
    rw [hx]
    push_cast
    ring
  have hbelow : (z : ℝ) ≤ x * (2 ^ bits : Nat) := by
    rw [hscaled]
    exact Nat.cast_div_le
  have habove : x * (2 ^ bits : Nat) ≤ z + 1 := by
    rw [hscaled, div_le_iff₀ hdreal, mul_comm (z + 1 : ℝ)]
    exact_mod_cast (Nat.lt_mul_div_succ (n * 2 ^ bits) hd).le
  have hs : 0 ≤ x ^ 2 := by positivity
  have hs' : x ^ 2 ≤ 1 / 9 := by nlinarith
  have hlow :=
    oddSeries_le hs hs' (by exact_mod_cast cut_square_le hwidth hbelow) bits z
    (k := 1) le_rfl
  have hhigh := le_oddSeries hs hs'
    (by exact_mod_cast le_cut_square hwidth hzthird hnonneg habove)
    (two_mul_cut_square_le hwidth hzthird) bits z (by omega) (by omega)
    (k := 1) le_rfl
  have hvalue : (logOfRatio bits n d : ℝ) =
      2 * oddSeries bits (z * z / 2 ^ bits) bits z 1 := by
    simp [logOfRatio, hz]
  have htail := oddTail_nonneg (k := 1) hs
  have htail' : oddTail (x ^ 2) 1 ≤ 9 / 8 := by
    simpa using oddTail_le hs hs' (k := 1) le_rfl
  rw [hvalue, ← two_mul_oddTail hnonneg hsmall, ratioLoss]
  push_cast at hbelow habove ⊢
  constructor
  · calc (2 * oddSeries bits (z * z / 2 ^ bits) bits z 1 : ℝ)
        ≤ 2 * (z * oddTail (x ^ 2) 1) := by gcongr
      _ ≤ 2 * (x * 2 ^ bits * oddTail (x ^ 2) 1) := by gcongr
      _ = 2 ^ bits * (2 * x * oddTail (x ^ 2) 1) := by ring
  · calc (2 ^ bits * (2 * x * oddTail (x ^ 2) 1) : ℝ)
        = 2 * (x * 2 ^ bits * oddTail (x ^ 2) 1) := by ring
      _ ≤ 2 * ((z + 1) * oddTail (x ^ 2) 1) := by gcongr
      _ = 2 * (z * oddTail (x ^ 2) 1) + 2 * oddTail (x ^ 2) 1 := by ring
      _ ≤ 2 * oddSeries bits (z * z / 2 ^ bits) bits z 1 + (4 * bits + 3) := by
          linarith

/-! ## Logarithms in fixed point -/

theorem logTwo_bounds (bits : Nat) : (logTwo bits : ℝ) ≤ 2 ^ bits * Real.log 2 ∧
    2 ^ bits * Real.log 2 ≤ logTwo bits + ratioLoss bits := by
  have htwo :
      ((1 : ℝ) + (1 : Nat) / (3 : Nat)) / (1 - (1 : Nat) / (3 : Nat)) = 2 := by
        norm_num
  have hbounds := logOfRatio_bounds bits (n := 1) (d := 3) (by decide) (by decide)
  rwa [htwo] at hbounds

section

variable {n d : Nat}

theorem powerPart_bounds (hd : 0 < d) (hone : d ≤ n) :
    0 ≤ binaryExponent n d ∧ d * 2 ^ (binaryExponent n d).toNat ≤ n ∧
      n < 2 * (d * 2 ^ (binaryExponent n d).toNat) := by
  have hn : n ≠ 0 := by omega
  have hdreal : (0 : ℝ) < d := by exact_mod_cast hd
  obtain ⟨hlow, hhigh⟩ := binaryExponent_bounds hn hd.ne'
  have hnonneg : 0 ≤ binaryExponent n d := by
    have hratio : (1 : ℝ) ≤ n / d := by
      rw [one_le_div hdreal]
      exact_mod_cast hone
    have hpower : (2 : ℝ) ^ (0 : Int) < 2 ^ (binaryExponent n d + 1) := by
      rw [zpow_zero]
      exact hratio.trans_lt hhigh
    have := (zpow_lt_zpow_iff_right₀ one_lt_two).1 hpower
    omega
  have hpower : (2 : ℝ) ^ binaryExponent n d =
      2 ^ (binaryExponent n d).toNat := by
    rw [← zpow_natCast, Int.toNat_of_nonneg hnonneg]
  rw [zpow_add_one₀ two_ne_zero] at hhigh
  rw [hpower] at hlow hhigh
  rw [le_div_iff₀ hdreal] at hlow
  rw [div_lt_iff₀ hdreal] at hhigh
  refine ⟨hnonneg, ?_, ?_⟩
  · rw [mul_comm]
    exact_mod_cast hlow
  · rw [mul_comm d, ← mul_assoc, mul_comm 2]
    exact_mod_cast hhigh

private theorem logRest_bounds (bits : Nat) (hd : 0 < d) (hone : d ≤ n) :
    (logRest bits n d : ℝ) ≤
        2 ^ bits * Real.log (n / (d * 2 ^ (binaryExponent n d).toNat)) ∧
      2 ^ bits * Real.log (n / (d * 2 ^ (binaryExponent n d).toNat)) ≤
        logRest bits n d + ratioLoss bits := by
  obtain ⟨-, hlow, hhigh⟩ := powerPart_bounds hd hone
  set p := d * 2 ^ (binaryExponent n d).toNat with hp
  have hpositive : 0 < p := Nat.mul_pos hd (Nat.two_pow_pos _)
  have hpreal : (0 : ℝ) < p := by exact_mod_cast hpositive
  have hratio :
      ((1 : ℝ) + (n - p : Nat) / (n + p : Nat)) /
        (1 - (n - p : Nat) / (n + p : Nat)) =
      n / p := by
    have hsum : (n : ℝ) + p ≠ 0 := by positivity
    have hupper : (1 : ℝ) + (n - p) / (n + p) = 2 * n / (n + p) := by
      field_simp
      ring
    have hlower : (1 : ℝ) - (n - p) / (n + p) = 2 * p / (n + p) := by
      field_simp
      ring
    rw [Nat.cast_sub hlow, Nat.cast_add, hupper, hlower,
      div_div_div_cancel_right₀ hsum, mul_div_mul_left _ _ two_ne_zero]
  have hcast : (p : ℝ) = d * 2 ^ (binaryExponent n d).toNat := by
    rw [hp]
    push_cast
    rfl
  have hbounds :=
    logOfRatio_bounds bits (n := n - p) (d := n + p) (by omega) (by omega)
  rw [hratio, hcast] at hbounds
  exact hbounds

def fixedLoss (bits n d : Nat) : Nat :=
  ((binaryExponent n d).toNat + 1) * ratioLoss bits

theorem fixedLog_bounds (bits : Nat) (hd : 0 < d) (hone : d ≤ n) :
    (fixedLog bits n d : ℝ) ≤ 2 ^ bits * Real.log (n / d) ∧
      2 ^ bits * Real.log (n / d) ≤ fixedLog bits n d + fixedLoss bits n d := by
  obtain ⟨hrestlow, hresthigh⟩ := logRest_bounds bits hd hone
  obtain ⟨htwolow, htwohigh⟩ := logTwo_bounds bits
  set k := (binaryExponent n d).toNat with hk
  have hnreal : (0 : ℝ) < n := by exact_mod_cast hd.trans_le hone
  have hdreal : (0 : ℝ) < d := by exact_mod_cast hd
  have hsplit : Real.log (n / d) =
      k * Real.log 2 + Real.log (n / (d * 2 ^ k)) := by
    rw [Real.log_div hnreal.ne' hdreal.ne',
      Real.log_div hnreal.ne' (by positivity), Real.log_mul hdreal.ne'
        (by positivity), Real.log_pow]
    ring
  have hvalue : (fixedLog bits n d : ℝ) = k * logTwo bits + logRest bits n d := by
    rw [fixedLog, ← hk]
    push_cast
    rfl
  have hloss : (fixedLoss bits n d : ℝ) = (k + 1) * ratioLoss bits := by
    rw [fixedLoss, ← hk]
    push_cast
    rfl
  have hexpanded : 2 ^ bits * Real.log (n / d) =
      k * (2 ^ bits * Real.log 2) + 2 ^ bits * Real.log (n / (d * 2 ^ k)) := by
    rw [hsplit]
    ring
  rw [hvalue, hloss, hexpanded]
  have hkreal : (0 : ℝ) ≤ k := Nat.cast_nonneg k
  constructor
  · gcongr
  · have := mul_le_mul_of_nonneg_left htwohigh hkreal
    linarith

theorem fixedLog_div_le (bits : Nat) (hd : 0 < d) (hone : d ≤ n) :
    (fixedLog bits n d / (2 ^ bits : Nat) : ℝ) ≤ Real.log (n / d) := by
  rw [div_le_iff₀ (by positivity), mul_comm]
  exact_mod_cast (fixedLog_bounds bits hd hone).1

end

end SnippetGrowth.Double
