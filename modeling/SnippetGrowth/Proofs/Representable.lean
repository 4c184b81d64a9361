import SnippetGrowth.Double.Power
import SnippetGrowth.Proofs.Nearest

/-!
# Results in the format of doubles

A significand and an exponent are stored as whole numbers without a bound.  The
format of doubles has bounds for both, and every operation keeps to them, since
each result is a constant or comes from `ofRatio`.
-/

namespace SnippetGrowth.Double

def IsRepresentable : Double → Prop
  | finite _ m e => IsNormal m e ∧ e ≤ greatestExponent
  | _ => True

/-! ## Arithmetic -/

theorem isRepresentable_ofRatio (negative : Bool) (n : Nat) {d : Nat}
    (hd : d ≠ 0) :
    (ofRatio negative n d).IsRepresentable := by
  rcases ofRatio_cases negative n hd with
    ⟨m, e, hdouble, hvalue, hrange, hnormal⟩ | ⟨-, hdouble⟩
  · rw [hdouble]
    refine ⟨hnormal, ?_⟩
    by_contra habove
    have hexponent : 971 < e := not_le.1 habove
    have hlong : (2 : ℝ) ^ 52 ≤ m := by
      exact_mod_cast hnormal.2.2.resolve_right (by omega)
    rw [← hvalue] at hrange
    refine hrange.not_ge ?_
    calc (2 : ℝ) ^ 1024 = 2 ^ 53 * 2 ^ (971 : Int) := by
          rw [two_zpow_mul, ← zpow_natCast]
          norm_num
      _ ≤ 2 ^ 52 * 2 ^ e := two_pow_mul_le hexponent
      _ ≤ m * 2 ^ e := by gcongr
  · rw [hdouble]
    trivial

theorem isRepresentable_ofScaled (negative : Bool) (m : Nat) (e : Int) :
    (ofScaled negative m e).IsRepresentable :=
  isRepresentable_ofRatio negative _ (Nat.two_pow_pos _).ne'

theorem isRepresentable_ofNat (n : Nat) : (ofNat n).IsRepresentable :=
  isRepresentable_ofRatio false n one_ne_zero

theorem isRepresentable_signedZero (negative : Bool) :
    (signedZero negative).IsRepresentable :=
  ⟨by decide, by decide⟩

theorem isRepresentable_one : one.IsRepresentable := ⟨by decide, by decide⟩

theorem isRepresentable_add (x y : Double) : (x.add y).IsRepresentable := by
  cases x with
  | nan => trivial
  | infinite left =>
      cases y with
      | nan => trivial
      | infinite right =>
          rw [add]
          split <;> trivial
      | finite t n f => trivial
  | finite s m e =>
      cases y with
      | nan => trivial
      | infinite right => trivial
      | finite t n f =>
          dsimp only [add]
          split
          · exact isRepresentable_signedZero _
          · exact isRepresentable_ofScaled _ _ _

theorem isRepresentable_mul (x y : Double) : (x.mul y).IsRepresentable := by
  cases x with
  | nan => trivial
  | infinite left =>
      cases y with
      | nan => trivial
      | infinite right => trivial
      | finite t n f =>
          rw [mul]
          split <;> trivial
  | finite s m e =>
      cases y with
      | nan => trivial
      | infinite right =>
          rw [mul]
          split <;> trivial
      | finite t n f => exact isRepresentable_ofScaled _ _ _

/-! ## Logarithms -/

private theorem isRepresentable_roundFixed (negative : Bool) (value : Nat → Nat)
    (widths : List Nat) :
    (roundFixed negative value widths).IsRepresentable := by
  induction widths with
  | nil => trivial
  | cons bits more ih =>
      have hwidth : (ofRatio negative (value bits) (2 ^ bits)).IsRepresentable :=
        isRepresentable_ofRatio _ _ (Nat.two_pow_pos _).ne'
      cases more with
      | nil => exact hwidth
      | cons next more =>
          dsimp only [roundFixed]
          split
          · exact hwidth
          · exact ih

private theorem isRepresentable_logBy (fixed : Nat → Nat → Nat → Nat)
    (n d : Nat) :
    (logBy fixed n d).IsRepresentable := by
  unfold logBy
  split_ifs
  · exact isRepresentable_signedZero false
  · exact isRepresentable_roundFixed _ _ _
  · exact isRepresentable_roundFixed _ _ _

private theorem isRepresentable_logTwoQuotient (n d : Nat) :
    (logTwoQuotient n d).IsRepresentable := by
  unfold logTwoQuotient
  split
  · exact isRepresentable_ofRatio _ _ one_ne_zero
  · exact isRepresentable_logBy _ _ _

theorem isRepresentable_log2 (x : Double) : (log2 x).IsRepresentable := by
  unfold log2 logarithm
  split
  · trivial
  · split <;> trivial
  · split_ifs
    · trivial
    · trivial
    · exact isRepresentable_logTwoQuotient _ _

theorem isRepresentable_logNat {log : Double → Double}
    (h : ∀ x, (log x).IsRepresentable) (n : Nat) :
    (logNat log n).IsRepresentable := by
  unfold logNat
  split
  · exact h _
  · exact isRepresentable_add _ _

/-! ## Powers -/

theorem isRepresentable_extremePower (inverse : Bool) :
    (extremePower inverse).IsRepresentable := by
  cases inverse with
  | true => exact isRepresentable_signedZero false
  | false => trivial

private theorem isRepresentable_irrationalPower (base : Nat) (negative : Bool)
    (k : Nat) (e : Int) (widths : List Nat) :
    (irrationalPower base negative k e widths).IsRepresentable := by
  induction widths with
  | nil => trivial
  | cons bits more ih =>
      dsimp only [irrationalPower]
      split_ifs
      · exact isRepresentable_extremePower negative
      all_goals first
        | exact isRepresentable_ofScaled _ _ _
        | exact ih

private theorem wholeRoot?_ne_zero {times n root : Nat} (hn : n ≠ 0)
    (h : wholeRoot? times n = some root) : root ≠ 0 := by
  induction times generalizing n with
  | zero =>
      cases h
      exact hn
  | succ times ih =>
      rw [wholeRoot?] at h
      split at h
      · next hsquare =>
          refine ih ?_ h
          intro hzero
          rw [hzero] at hsquare
          exact hn hsquare.symm
      · contradiction

private theorem isRepresentable_rationalPower {root : Nat} (hroot : root ≠ 0)
    (negative : Bool) (k : Nat) :
    (rationalPower root negative k).IsRepresentable := by
  unfold rationalPower
  split_ifs
  · exact isRepresentable_extremePower negative
  · exact isRepresentable_ofRatio _ _ (Nat.pow_pos (Nat.pos_of_ne_zero hroot)).ne'
  · exact isRepresentable_ofRatio _ _ one_ne_zero

theorem isRepresentable_powNat {base : Nat} (hbase : base ≠ 0)
    (exponent : Double) :
    (powNat base exponent).IsRepresentable := by
  cases exponent with
  | nan =>
      rw [powNat]
      split
      · exact isRepresentable_one
      · trivial
  | infinite negative =>
      rw [powNat]
      split
      · exact isRepresentable_one
      · exact isRepresentable_extremePower negative
  | finite negative m e =>
      rw [powNat]
      split
      · exact isRepresentable_one
      · dsimp only [powFinite]
        split
        · exact isRepresentable_extremePower negative
        · split
          · next root hroot =>
              exact isRepresentable_rationalPower
                (wholeRoot?_ne_zero hbase hroot) _ _
          · exact isRepresentable_irrationalPower _ _ _ _ _

end SnippetGrowth.Double
