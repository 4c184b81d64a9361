import Mathlib.Algebra.Order.Field.Power
import Mathlib.Data.Real.Basic
import Mathlib.Tactic.FieldSimp
import Mathlib.Tactic.Linarith
import Mathlib.Tactic.NormNum
import Mathlib.Tactic.Positivity
import SnippetGrowth.Proofs.Rounding

/-!
# Rounding keeps the order

A quotient is rounded to the nearest multiple of its quantum.  The quanta grow
with the quotients, and each of them is a multiple of the smaller ones, so a
greater quotient is never rounded to a smaller double.  Doubles that come from
rounding are equal if their values are, and compare as their values do.
-/

namespace SnippetGrowth

/-! ## Rounded quotients -/

private theorem lt_roundQuotient_iff {s n d : Nat} (hd : 0 < d) :
    s < roundQuotient n d ↔
    (2 * s + 1) * d < 2 * n ∨ (2 * s + 1) * d = 2 * n ∧ s % 2 = 1 := by
  have hsplit := Nat.div_add_mod n d
  have hrest := Nat.mod_lt n hd
  have hmiddle : (2 * s + 1) * d = 2 * (d * s) + d := by ring
  simp only [roundQuotient, hmiddle]
  rcases Nat.lt_trichotomy s (n / d) with hlt | rfl | hlt
  · have hstep : d * s + d ≤ d * (n / d) := by
      rw [← Nat.mul_succ]
      exact Nat.mul_le_mul_left d hlt
    split_ifs <;> omega
  · split_ifs <;> omega
  · have hstep : d * (n / d) + d ≤ d * s := by
      rw [← Nat.mul_succ]
      exact Nat.mul_le_mul_left d hlt
    split_ifs <;> omega

theorem roundQuotient_le_roundQuotient {n d n' d' : Nat} (hd : 0 < d)
    (hd' : 0 < d') (h : n * d' ≤ n' * d) :
    roundQuotient n d ≤ roundQuotient n' d' := by
  refine le_of_forall_lt fun s hs => ?_
  rw [lt_roundQuotient_iff hd] at hs
  rw [lt_roundQuotient_iff hd']
  have hcross : (2 * s + 1) * d' * d ≤ 2 * n' * d ∧
      ((2 * s + 1) * d < 2 * n → (2 * s + 1) * d' * d < 2 * n' * d) := by
    have hscaled : (2 * s + 1) * d * d' ≤ 2 * n * d' := by
      refine Nat.mul_le_mul_right d' ?_
      omega
    have hstrict : (2 * s + 1) * d < 2 * n → (2 * s + 1) * d * d' < 2 * n * d' :=
      fun hlt => Nat.mul_lt_mul_of_pos_right hlt hd'
    have hleft : (2 * s + 1) * d' * d = (2 * s + 1) * d * d' := by ring
    have hmiddle : 2 * n * d' = 2 * (n * d') := by ring
    have hright : 2 * n' * d = 2 * (n' * d) := by ring
    omega
  rcases hs with hlt | ⟨hmiddle, hodd⟩
  · exact .inl (Nat.lt_of_mul_lt_mul_right (hcross.2 hlt))
  · rcases Nat.eq_or_lt_of_le (Nat.le_of_mul_le_mul_right hcross.1 hd) with
      heq | hlt
    · exact .inr ⟨heq, hodd⟩
    · exact .inl hlt

/-! ## Powers of two -/

theorem two_zpow_eq (e : Int) : (2 : ℝ) ^ e = 2 ^ e.toNat / 2 ^ (-e).toNat := by
  rcases Int.le_total 0 e with h | h
  · have hnone : (-e).toNat = 0 := by omega
    rw [hnone, pow_zero, div_one, ← zpow_natCast, Int.toNat_of_nonneg h]
  · have hnone : e.toNat = 0 := by omega
    have hopposite : ((-e).toNat : Int) = -e := Int.toNat_of_nonneg (by omega)
    rw [hnone, pow_zero, ← zpow_natCast (2 : ℝ) (-e).toNat, hopposite, zpow_neg,
      one_div, inv_inv]

theorem two_zpow_mul (k : Nat) (e : Int) : (2 : ℝ) ^ k * 2 ^ e = 2 ^ (k + e) := by
  rw [zpow_add₀ two_ne_zero, zpow_natCast]

theorem two_pow_mul_le {e e' : Int} (h : e < e') :
    (2 : ℝ) ^ 53 * 2 ^ e ≤ 2 ^ 52 * 2 ^ e' := by
  rw [two_zpow_mul, two_zpow_mul]
  exact zpow_le_zpow_right₀ one_le_two (by push_cast; omega)

theorem cast_scaled_div (n d : Nat) (e : Int) :
    ((n * 2 ^ (-e).toNat : Nat) : ℝ) / (d * 2 ^ e.toNat : Nat) =
      n / d / 2 ^ e := by
  rw [two_zpow_eq]
  push_cast
  field_simp

theorem binaryExponent_bounds {n d : Nat} (hn : n ≠ 0) (hd : d ≠ 0) :
    (2 : ℝ) ^ binaryExponent n d ≤ n / d ∧
    (n / d : ℝ) < 2 ^ (binaryExponent n d + 1) := by
  have hdpos : (0 : ℝ) < d := by positivity
  have hnlow : (2 : ℝ) ^ n.log2 ≤ n := by exact_mod_cast Nat.log2_self_le hn
  have hnhigh : (n : ℝ) < 2 ^ (n.log2 + 1) := by exact_mod_cast Nat.lt_log2_self
  have hdlow : (2 : ℝ) ^ d.log2 ≤ d := by exact_mod_cast Nat.log2_self_le hd
  have hdhigh : (d : ℝ) < 2 ^ (d.log2 + 1) := by exact_mod_cast Nat.lt_log2_self
  set guess : Int := n.log2 - d.log2 with hguess
  have hhigh : (n / d : ℝ) < 2 ^ (guess + 1) := by
    have hpower : (2 : ℝ) ^ (guess + 1) = 2 ^ (n.log2 + 1) / 2 ^ d.log2 := by
      rw [← zpow_natCast, ← zpow_natCast, ← zpow_sub₀ two_ne_zero]
      congr 1
      push_cast
      omega
    rw [hpower]
    exact div_lt_div₀ hnhigh hdlow (by positivity) (by positivity)
  have hlow : (2 : ℝ) ^ (guess - 1) ≤ n / d := by
    have hpower : (2 : ℝ) ^ (guess - 1) = 2 ^ n.log2 / 2 ^ (d.log2 + 1) := by
      rw [← zpow_natCast, ← zpow_natCast, ← zpow_sub₀ two_ne_zero]
      congr 1
      push_cast
      omega
    rw [hpower]
    exact div_le_div₀ (by positivity) hnlow hdpos hdhigh.le
  have htest : d * 2 ^ guess.toNat ≤ n * 2 ^ (-guess).toNat ↔
      (2 : ℝ) ^ guess ≤ n / d := by
    rw [two_zpow_eq, div_le_div_iff₀ (by positivity) hdpos,
      ← Nat.cast_le (α := ℝ)]
    push_cast
    rw [mul_comm (2 ^ guess.toNat : ℝ)]
  simp only [binaryExponent, ← hguess]
  split
  · next h => exact ⟨htest.1 h, hhigh⟩
  · next h => exact ⟨hlow, by simpa using lt_of_not_ge fun hle => h (htest.2 hle)⟩

namespace Double

/-! ## Multiples of a power of two -/

def multiples (e : Int) (n d : Nat) : Nat :=
  roundQuotient (n * 2 ^ (-e).toNat) (d * 2 ^ e.toNat)

theorem multiples_le_multiples {e : Int} {n d n' d' : Nat} (hd : d ≠ 0)
    (hd' : d' ≠ 0) (h : (n / d : ℝ) ≤ n' / d') :
    multiples e n d ≤ multiples e n' d' := by
  have hpos : ∀ {d : Nat}, d ≠ 0 → 0 < d * 2 ^ e.toNat := fun hd =>
    Nat.mul_pos (Nat.pos_of_ne_zero hd) (Nat.two_pow_pos _)
  have hscaled : ((n * 2 ^ (-e).toNat : Nat) : ℝ) / (d * 2 ^ e.toNat : Nat) ≤
      (n' * 2 ^ (-e).toNat : Nat) / (d' * 2 ^ e.toNat : Nat) := by
    rw [cast_scaled_div, cast_scaled_div]
    gcongr
  rw [div_le_div_iff₀ (by exact_mod_cast hpos hd)
    (by exact_mod_cast hpos hd')] at hscaled
  exact roundQuotient_le_roundQuotient (hpos hd) (hpos hd')
    (by exact_mod_cast hscaled)

theorem cast_ratio (s : Nat) (e : Int) :
    ((s * 2 ^ e.toNat : Nat) : ℝ) / (2 ^ (-e).toNat : Nat) = s * 2 ^ e := by
  rw [two_zpow_eq]
  push_cast
  rw [mul_div_assoc]

theorem multiples_ratio (s : Nat) (e : Int) :
    multiples e (s * 2 ^ e.toNat) (2 ^ (-e).toNat) = s := by
  have hpos : 0 < 2 ^ (-e).toNat * 2 ^ e.toNat :=
    Nat.mul_pos (Nat.two_pow_pos _) (Nat.two_pow_pos _)
  have hwhole : s * 2 ^ e.toNat * 2 ^ (-e).toNat =
      s * (2 ^ (-e).toNat * 2 ^ e.toNat) := by ring
  simp [multiples, roundQuotient, hwhole, Nat.mul_div_cancel _ hpos]

theorem multiples_le {e : Int} {n d s : Nat} (hd : d ≠ 0)
    (h : (n / d : ℝ) ≤ s * 2 ^ e) :
    multiples e n d ≤ s := by
  rw [← cast_ratio] at h
  exact (multiples_le_multiples hd (Nat.two_pow_pos _).ne' h).trans_eq
    (multiples_ratio s e)

theorem le_multiples {e : Int} {n d s : Nat} (hd : d ≠ 0)
    (h : s * 2 ^ e ≤ (n / d : ℝ)) :
    s ≤ multiples e n d := by
  rw [← cast_ratio] at h
  exact (multiples_ratio s e).symm.trans_le
    (multiples_le_multiples (Nat.two_pow_pos _).ne' hd h)

/-! ## Rounding a quotient -/

noncomputable def nearest (n d : Nat) : ℝ :=
  multiples (quantum n d) n d * 2 ^ quantum n d

theorem quantum_eq (n d : Nat) :
    quantum n d = max (binaryExponent n d - 52) (-1074) := rfl

theorem multiples_quantum_le {n d : Nat} (hn : n ≠ 0) (hd : d ≠ 0) :
    multiples (quantum n d) n d ≤ 2 ^ 53 := by
  refine multiples_le hd ((binaryExponent_bounds hn hd).2.le.trans ?_)
  have hexponent : binaryExponent n d + 1 ≤ (53 : Nat) + quantum n d := by
    rw [quantum_eq]
    omega
  calc (2 : ℝ) ^ (binaryExponent n d + 1) ≤ 2 ^ ((53 : Nat) + quantum n d) :=
        zpow_le_zpow_right₀ one_le_two hexponent
    _ = (2 ^ 53 : Nat) * 2 ^ quantum n d := by
        rw [zpow_add₀ two_ne_zero, zpow_natCast]
        norm_cast

theorem le_multiples_quantum {n d : Nat} (hn : n ≠ 0) (hd : d ≠ 0)
    (h : -1074 < quantum n d) : 2 ^ 52 ≤ multiples (quantum n d) n d := by
  refine le_multiples hd (le_trans ?_ (binaryExponent_bounds hn hd).1)
  have hexponent : (52 : Nat) + quantum n d = binaryExponent n d := by
    rw [quantum_eq] at h ⊢
    omega
  rw [← hexponent, zpow_add₀ two_ne_zero, zpow_natCast]
  norm_cast

private theorem quantum_le_quantum {n d n' d' : Nat} (hn : n ≠ 0) (hd : d ≠ 0)
    (hn' : n' ≠ 0) (hd' : d' ≠ 0) (h : (n / d : ℝ) ≤ n' / d') :
    quantum n d ≤ quantum n' d' := by
  have hpower : (2 : ℝ) ^ binaryExponent n d < 2 ^ (binaryExponent n' d' + 1) :=
    ((binaryExponent_bounds hn hd).1.trans h).trans_lt
      (binaryExponent_bounds hn' hd').2
  have hexponent := (zpow_lt_zpow_iff_right₀ one_lt_two).1 hpower
  rw [quantum_eq, quantum_eq]
  omega

theorem nearest_zero (d : Nat) : nearest 0 d = 0 := by
  simp [nearest, multiples, roundQuotient]

private theorem nearest_nonneg (n d : Nat) : 0 ≤ nearest n d := by
  unfold nearest
  positivity

/-- A greater quotient is not rounded to less. Where its quantum is greater too,
it has a significand of full length, and the other one is at most one bit
longer. -/
theorem nearest_le_nearest {n d n' d' : Nat} (hd : d ≠ 0) (hd' : d' ≠ 0)
    (h : (n / d : ℝ) ≤ n' / d') : nearest n d ≤ nearest n' d' := by
  rcases eq_or_ne n 0 with rfl | hn
  · rw [nearest_zero]
    exact nearest_nonneg _ _
  · have hpositive : (0 : ℝ) < n / d := by positivity
    have hn' : n' ≠ 0 := by
      rintro rfl
      simp only [Nat.cast_zero, zero_div] at h
      exact absurd hpositive h.not_gt
    unfold nearest
    rcases (quantum_le_quantum hn hd hn' hd' h).eq_or_lt with heq | hlt
    · rw [heq]
      have hcount := multiples_le_multiples (e := quantum n' d') hd hd' h
      gcongr
    · have hshort : (multiples (quantum n d) n d : ℝ) ≤ 2 ^ 53 := by
        exact_mod_cast multiples_quantum_le hn hd
      have hlong : (2 : ℝ) ^ 52 ≤ multiples (quantum n' d') n' d' := by
        have hleast : -1074 ≤ quantum n d := le_max_right _ _
        exact_mod_cast le_multiples_quantum hn' hd' (by omega)
      calc (multiples (quantum n d) n d * 2 ^ quantum n d : ℝ)
          ≤ 2 ^ 53 * 2 ^ quantum n d := by gcongr
        _ ≤ 2 ^ 52 * 2 ^ quantum n' d' := two_pow_mul_le hlt
        _ ≤ multiples (quantum n' d') n' d' * 2 ^ quantum n' d' := by gcongr

/-! ## Doubles by their values -/

/-- Whether a significand is as long as its exponent allows. -/
def IsNormal (m : Nat) (e : Int) : Prop :=
  m < 2 ^ 53 ∧ -1074 ≤ e ∧ (2 ^ 52 ≤ m ∨ e = -1074)

instance (m : Nat) (e : Int) : Decidable (IsNormal m e) :=
  inferInstanceAs (Decidable (_ ∧ _))

private theorem IsNormal.exponent_le {m m' : Nat} {e e' : Int} (h : IsNormal m e)
    (h' : IsNormal m' e') (hvalue : (m * 2 ^ e : ℝ) = m' * 2 ^ e') : e' ≤ e := by
  by_contra hlt
  have hshort : (m : ℝ) < 2 ^ 53 := by exact_mod_cast h.1
  have hlong : (2 : ℝ) ^ 52 ≤ m' := by
    have hleast := h.2.1
    exact_mod_cast h'.2.2.resolve_right (by omega)
  have hless : (m * 2 ^ e : ℝ) < m' * 2 ^ e' := by
    calc (m * 2 ^ e : ℝ) < 2 ^ 53 * 2 ^ e := by gcongr
      _ ≤ 2 ^ 52 * 2 ^ e' := two_pow_mul_le (not_le.1 hlt)
      _ ≤ m' * 2 ^ e' := by gcongr
  exact hless.ne hvalue

theorem IsNormal.eq_of_value_eq {m m' : Nat} {e e' : Int} (h : IsNormal m e)
    (h' : IsNormal m' e') (hvalue : (m * 2 ^ e : ℝ) = m' * 2 ^ e') :
    m = m' ∧ e = e' := by
  have hexponent : e = e' :=
    le_antisymm (h'.exponent_le h hvalue.symm) (h.exponent_le h' hvalue)
  subst hexponent
  exact ⟨by
    exact_mod_cast mul_right_cancel₀ (by positivity : (2 : ℝ) ^ e ≠ 0) hvalue,
    rfl⟩

theorem nearest_of_isNormal {n d m : Nat} {e : Int} (hd : d ≠ 0)
    (h : IsNormal m e) (hvalue : (n / d : ℝ) = m * 2 ^ e) :
    nearest n d = n / d := by
  rcases eq_or_ne n 0 with rfl | hn
  · simp [nearest_zero]
  · obtain ⟨hlow, hhigh⟩ := binaryExponent_bounds hn hd
    have hbelow : binaryExponent n d < (53 : Nat) + e := by
      refine (zpow_lt_zpow_iff_right₀ one_lt_two (a := (2 : ℝ))).1
        (hlow.trans_lt ?_)
      rw [hvalue, ← two_zpow_mul]
      gcongr
      exact_mod_cast h.1
    have hquantum : quantum n d = e := by
      rw [quantum_eq]
      rcases h.2.2 with hlong | hleast
      · have habove : (52 : Nat) + e < binaryExponent n d + 1 := by
          refine (zpow_lt_zpow_iff_right₀ one_lt_two (a := (2 : ℝ))).1
            (lt_of_le_of_lt ?_ hhigh)
          rw [hvalue, ← two_zpow_mul]
          gcongr
          exact_mod_cast hlong
        have hleast := h.2.1
        omega
      · omega
    have hcount : multiples e n d = m :=
      le_antisymm (multiples_le hd hvalue.le) (le_multiples hd hvalue.ge)
    rw [nearest, hquantum, hcount, hvalue]

theorem ofRatio_eq (negative : Bool) {n d : Nat} (hn : n ≠ 0) :
    ofRatio negative n d =
    if multiples (quantum n d) n d = 2 ^ 53 then
      if quantum n d < greatestExponent then
        finite negative (2 ^ 52) (quantum n d + 1)
      else infinite negative
    else if quantum n d ≤ greatestExponent then
      finite negative (multiples (quantum n d) n d) (quantum n d)
    else infinite negative := by
  rw [ofRatio, if_neg hn]
  rfl

/-- A quotient has a finite double of the value that it is rounded to, unless
that value is past the range. -/
theorem ofRatio_cases (negative : Bool) (n : Nat) {d : Nat} (hd : d ≠ 0) :
    (∃ m e, ofRatio negative n d = finite negative m e ∧ m * 2 ^ e = nearest n d ∧
        nearest n d < 2 ^ 1024 ∧ IsNormal m e) ∨
      2 ^ 1024 ≤ nearest n d ∧ ofRatio negative n d = infinite negative := by
  rcases eq_or_ne n 0 with rfl | hn
  · rw [nearest_zero]
    exact .inl ⟨0, -1074, rfl, by simp, by positivity, by decide, le_rfl,
      .inr rfl⟩
  have hleast : -1074 ≤ quantum n d := le_max_right _ _
  have hshort := multiples_quantum_le hn hd
  have hlong := le_multiples_quantum hn hd
  have hrange : ∀ k : Nat, ∀ e : Int, (2 : ℝ) ^ k * 2 ^ e < 2 ^ 1024 ↔
      k + e < 1024 := by
    intro k e
    rw [two_zpow_mul, ← zpow_natCast (2 : ℝ) 1024]
    exact zpow_lt_zpow_iff_right₀ one_lt_two
  have hend : ∀ k : Nat, ∀ e : Int, k + e = 1024 →
      (2 : ℝ) ^ k * 2 ^ e = 2 ^ 1024 := by
    intro k e h
    rw [two_zpow_mul, h, ← zpow_natCast (2 : ℝ) 1024, Nat.cast_ofNat]
  have hvalue : nearest n d = multiples (quantum n d) n d * 2 ^ quantum n d := rfl
  rw [ofRatio_eq negative hn, hvalue]
  rcases hshort.eq_or_lt with hcarry | hcarry
  · have hcarried : (multiples (quantum n d) n d * 2 ^ quantum n d : ℝ) =
        2 ^ 52 * 2 ^ (quantum n d + 1) := by
      rw [hcarry, zpow_add_one₀ two_ne_zero]
      push_cast
      ring
    rw [if_pos hcarry, hcarried]
    rcases lt_or_ge (quantum n d) 971 with hgreatest | hgreatest
    · refine .inl ⟨2 ^ 52, quantum n d + 1, if_pos hgreatest, by norm_cast, ?_,
        by norm_num, ?_, ?_⟩
      · rw [hrange]
        omega
      · omega
      · exact .inl le_rfl
    · refine .inr ⟨?_, if_neg (by simpa [greatestExponent] using hgreatest)⟩
      rw [← not_lt, hrange]
      omega
  · rw [if_neg hcarry.ne]
    rcases le_or_gt (quantum n d) 971 with hgreatest | hgreatest
    · refine .inl ⟨_, _, if_pos hgreatest, rfl, ?_, hcarry, hleast, ?_⟩
      · calc (multiples (quantum n d) n d * 2 ^ quantum n d : ℝ)
            < 2 ^ 53 * 2 ^ quantum n d := by
              gcongr
              exact_mod_cast hcarry
          _ ≤ 2 ^ 53 * 2 ^ (971 : Int) := by
              gcongr
              exact one_le_two
          _ = 2 ^ 1024 := hend 53 971 rfl
      · rcases hleast.eq_or_lt with heq | hlt
        · exact .inr heq.symm
        · exact .inl (hlong hlt)
    · refine .inr ⟨?_, if_neg (by simpa [greatestExponent] using hgreatest)⟩
      calc (2 : ℝ) ^ 1024 = 2 ^ 52 * 2 ^ (972 : Int) := (hend 52 972 rfl).symm
        _ ≤ 2 ^ 52 * 2 ^ quantum n d := by
            gcongr
            · exact one_le_two
            · omega
        _ ≤ multiples (quantum n d) n d * 2 ^ quantum n d := by
            gcongr
            exact_mod_cast hlong (by omega)

/-! ## Order -/

def IsUnsigned : Double → Prop
  | nan => False
  | infinite negative => negative = false
  | finite negative _ _ => negative = false

theorem cast_aligned {m : Nat} {e base : Int} (h : base ≤ e) :
    (aligned false m e base : ℝ) * 2 ^ base = m * 2 ^ e := by
  have hexponent : ((e - base).toNat : Int) = e - base :=
    Int.toNat_of_nonneg (by omega)
  have hpower : (2 : ℝ) ^ (e - base).toNat * 2 ^ base = 2 ^ e := by
    rw [two_zpow_mul, hexponent, sub_add_cancel]
  rw [aligned, if_neg (by decide)]
  push_cast
  rw [mul_assoc, hpower]

theorem lt_finite_iff {m n : Nat} {e f : Int} :
    (finite false m e).lt (finite false n f) = true ↔
      (m * 2 ^ e : ℝ) < n * 2 ^ f := by
  have hpower : (0 : ℝ) < 2 ^ min e f := by positivity
  rw [← cast_aligned (min_le_left e f), ← cast_aligned (min_le_right e f),
    mul_lt_mul_iff_left₀ hpower, Int.cast_lt]
  simp [lt]

theorem isUnsigned_ofRatio (n d : Nat) : (ofRatio false n d).IsUnsigned := by
  unfold ofRatio
  split
  · rfl
  · dsimp only
    split_ifs <;> rfl

private theorem lt_infinite_eq_false {x : Double} (h : x.IsUnsigned) :
    (infinite false).lt x = false := by
  cases x with
  | nan => rfl
  | infinite negative => rfl
  | finite negative m e => rfl

/-- A greater quotient has no lesser double. -/
theorem lt_ofRatio_eq_false {n d n' d' : Nat} (hd : d ≠ 0) (hd' : d' ≠ 0)
    (h : (n / d : ℝ) ≤ n' / d') :
    (ofRatio false n' d').lt (ofRatio false n d) = false := by
  have hnearest := nearest_le_nearest hd hd' h
  rcases ofRatio_cases false n' hd' with
    ⟨m', e', hdouble', hvalue', hrange', -⟩ | ⟨-, hdouble'⟩
  · rcases ofRatio_cases false n hd with
      ⟨m, e, hdouble, hvalue, -, -⟩ | ⟨hrange, -⟩
    · rw [hdouble, hdouble', Bool.eq_false_iff, Ne, lt_finite_iff, hvalue,
        hvalue']
      exact hnearest.not_gt
    · exact absurd (hrange.trans hnearest) hrange'.not_ge
  · rw [hdouble']
    exact lt_infinite_eq_false (isUnsigned_ofRatio n d)

theorem ofRatio_eq_of_nearest_eq (negative : Bool) {n d n' d' : Nat} (hd : d ≠ 0)
    (hd' : d' ≠ 0) (h : nearest n d = nearest n' d') :
    ofRatio negative n d = ofRatio negative n' d' := by
  rcases ofRatio_cases negative n hd with
    ⟨m, e, hdouble, hvalue, hrange, hnormal⟩ | ⟨hrange, hdouble⟩
  · rcases ofRatio_cases negative n' hd' with
      ⟨m', e', hdouble', hvalue', -, hnormal'⟩ | ⟨hrange', -⟩
    · obtain ⟨rfl, rfl⟩ :=
        hnormal.eq_of_value_eq hnormal' (by rw [hvalue, hvalue', h])
      rw [hdouble, hdouble']
    · exact absurd hrange (h ▸ hrange'.not_gt)
  · rcases ofRatio_cases negative n' hd' with
      ⟨-, -, -, -, hrange', -⟩ | ⟨-, hdouble'⟩
    · exact absurd hrange (h ▸ hrange'.not_ge)
    · rw [hdouble, hdouble']

end Double

end SnippetGrowth
