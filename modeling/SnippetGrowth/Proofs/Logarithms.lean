import SnippetGrowth.Proofs.FixedLogarithms

/-!
# Logarithms keep the order

A rounded logarithm comes from a width at which the whole error interval rounds
to one double, or from the last width.  There the loss is far less than the
distance of the logarithms of two whole numbers in the range of doubles, so
the greater number has no lesser logarithm.

Past the range a logarithm is a sum of two doubles, and the order may be lost.
From two on it is still at least one half.
-/

namespace SnippetGrowth.Double

/-! ## Rounded logarithms -/

theorem exists_roundFixed_eq (negative : Bool) (value : Nat → Nat)
    (widths : List Nat) {last : Nat} (hlast : widths.getLast? = some last) :
    ∃ bits ∈ widths,
      roundFixed negative value widths =
        ofRatio negative (value bits) (2 ^ bits) ∧
        (bits = last ∨ roundFixed negative value widths =
          ofRatio negative (value bits + truncationLoss) (2 ^ bits)) := by
  fun_induction roundFixed negative value widths with
  | case1 => simp at hlast
  | case2 bits => exact ⟨bits, by simp, rfl, .inl (by simpa using hlast)⟩
  | case3 bits more hmore low hagree =>
      exact ⟨bits, by simp, rfl, .inr hagree⟩
  | case4 bits more hmore low hagree ih =>
      have hrest : more.getLast? = some last := by
        rw [← hlast, List.getLast?_cons_of_ne_nil hmore]
      obtain ⟨width, hmem, hvalue⟩ := ih hrest
      exact ⟨width, List.mem_cons_of_mem _ hmem, hvalue⟩

theorem logQuotient_eq_roundFixed {n d : Nat} (h : d < n) :
    logQuotient n d = roundFixed false (fixedLog · n d) precisions := by
  rw [logQuotient, logBy, if_neg h.ne', if_pos h]

theorem logQuotient_below_eq_roundFixed {n d : Nat} (h : n < d) :
    logQuotient n d = roundFixed true (fixedLog · d n) precisions := by
  rw [logQuotient, logBy, if_neg h.ne, if_neg h.not_gt]

theorem getLast?_precisions : precisions.getLast? = some 1536 := rfl

private theorem fixedLoss_le {bits n d : Nat} (hbits : bits ∈ precisions)
    (hn : n ≠ 0) (hd : d ≠ 0) (hrange : (n / d : ℝ) < 2 ^ 1024) :
    fixedLoss bits n d ≤ truncationLoss := by
  have hexponent : binaryExponent n d < 1024 := by
    have hpower := (binaryExponent_bounds hn hd).1.trans_lt hrange
    rw [← zpow_natCast (2 : ℝ) 1024, Nat.cast_ofNat] at hpower
    exact (zpow_lt_zpow_iff_right₀ one_lt_two).1 hpower
  have hwidth : ratioLoss bits ≤ 6147 := by
    have hall : ∀ bits ∈ precisions, ratioLoss bits ≤ 6147 := by decide
    exact hall bits hbits
  calc fixedLoss bits n d ≤ 1024 * 6147 := Nat.mul_le_mul (by omega) hwidth
    _ ≤ truncationLoss := by decide

/-- The real quotients behind the doubles of two logarithms are in order if the
logarithms are, with room for the loss of the last width. -/
theorem lt_logQuotient_eq_false {n d n' d' : Nat} (hd : 0 < d) (hd' : 0 < d')
    (hone : d < n) (hone' : d' < n') (hrange : (n' / d' : ℝ) < 2 ^ 1024)
    (hgap : Real.log (n / d) + truncationLoss / 2 ^ 1536 ≤ Real.log (n' / d')) :
    (logQuotient n' d').lt (logQuotient n d) = false := by
  rw [logQuotient_eq_roundFixed hone, logQuotient_eq_roundFixed hone']
  obtain ⟨bits, hbits, hvalue, -⟩ :=
    exists_roundFixed_eq false (fixedLog · n d) precisions getLast?_precisions
  obtain ⟨bits', hbits', hvalue', hagree⟩ :=
    exists_roundFixed_eq false (fixedLog · n' d') precisions getLast?_precisions
  have hlow := fixedLog_div_le bits hd hone.le
  have hhigh : Real.log (n' / d') ≤
      (fixedLog bits' n' d' + truncationLoss : Nat) / (2 ^ bits' : Nat) := by
    have hloss : (fixedLoss bits' n' d' : ℝ) ≤ truncationLoss := by
      exact_mod_cast fixedLoss_le hbits' (hd'.trans hone').ne' hd'.ne' hrange
    rw [le_div_iff₀ (by positivity), mul_comm]
    push_cast
    exact (fixedLog_bounds bits' hd' hone'.le).2.trans (by gcongr)
  have hnonneg : (0 : ℝ) ≤ truncationLoss / 2 ^ 1536 := by positivity
  have hwidth : ∀ bits : Nat, 2 ^ bits ≠ 0 :=
    fun bits => (Nat.two_pow_pos bits).ne'
  rw [hvalue]
  -- The greater logarithm is taken at its upper end where its error interval
  -- rounds to one double.
  -- At the last width it need not, and the room between the logarithms makes up
  -- for the loss.
  rcases hagree with hlast | hagree
  · have hloss : (truncationLoss / 2 ^ bits' : ℝ) = truncationLoss / 2 ^ 1536 := by
      rw [hlast]
    rw [hvalue']
    refine lt_ofRatio_eq_false (hwidth bits) (hwidth bits') (hlow.trans ?_)
    rw [Nat.cast_add, add_div, Nat.cast_pow, Nat.cast_ofNat, hloss] at hhigh
    rw [Nat.cast_pow 2 bits', Nat.cast_ofNat]
    exact le_of_add_le_add_right (hgap.trans hhigh)
  · rw [hagree]
    refine lt_ofRatio_eq_false (hwidth bits) (hwidth bits') (hlow.trans ?_)
    exact ((le_add_of_nonneg_right hnonneg).trans hgap).trans hhigh

/-! ## Whole numbers in the range of doubles -/

theorem log_add_loss_le {n m : Nat} (hn : 0 < n) (hnm : n < m)
    (hm : (m : ℝ) < 2 ^ 1024) :
    Real.log n + truncationLoss / 2 ^ 1536 ≤ Real.log m := by
  have hnreal : (0 : ℝ) < n := by exact_mod_cast hn
  have hmreal : (0 : ℝ) < m := by exact_mod_cast hn.trans hnm
  have hstep : (n : ℝ) + 1 ≤ m := by exact_mod_cast hnm
  have hratio : Real.log n - Real.log m ≤ -(1 / m) := by
    rw [← Real.log_div hnreal.ne' hmreal.ne']
    refine (Real.log_le_sub_one_of_pos (by positivity)).trans ?_
    rw [div_sub_one hmreal.ne', ← neg_div, div_le_div_iff_of_pos_right hmreal]
    linarith
  have hloss : (truncationLoss / 2 ^ 1536 : ℝ) ≤ 1 / 2 ^ 1024 := by
    have hpower : (truncationLoss : ℝ) = 2 ^ 40 := by norm_num [truncationLoss]
    rw [div_le_div_iff₀ (by positivity) (by positivity), hpower, ← pow_add,
      one_mul]
    exact pow_le_pow_right₀ one_le_two (by norm_num)
  have hlast : (1 / 2 ^ 1024 : ℝ) ≤ 1 / m := by gcongr
  calc Real.log n + truncationLoss / 2 ^ 1536 ≤ Real.log n + 1 / m :=
        add_le_add le_rfl (hloss.trans hlast)
    _ ≤ Real.log m := by linarith only [hratio]

theorem ln_finite {m : Nat} {e : Int} (hm : m ≠ 0) :
    ln (finite false m e) = logQuotient (m * 2 ^ e.toNat) (2 ^ (-e).toNat) := by
  simp [ln, logarithm, hm]

theorem exists_ofNat_eq {n : Nat} (hn : n ≠ 0)
    (hfinite : (ofNat n).isFinite = true) :
    ∃ m e, ∃ k : Nat, ofNat n = finite false m e ∧ m ≠ 0 ∧ k ≠ 0 ∧
      (m * 2 ^ e : ℝ) = k ∧
      nearest n 1 = k ∧ (k : ℝ) < 2 ^ 1024 := by
  have hwhole := isPositiveWhole_ofNat hn hfinite
  rcases ofRatio_cases false n one_ne_zero with
    ⟨m, e, hdouble, hvalue, hrange, -⟩ | ⟨-, hdouble⟩
  · rw [ofNat, hdouble] at hwhole
    obtain ⟨-, hm, k, rfl⟩ := hwhole
    have hk : k ≠ 0 := Nat.ne_zero_of_mul_ne_zero_right hm
    have hcancelled : ((2 ^ (-e).toNat * k : Nat) * 2 ^ e : ℝ) =
        (k * 2 ^ e.toNat : Nat) := by
      rw [two_zpow_eq]
      push_cast
      field_simp
    rw [hcancelled] at hvalue
    exact ⟨_, e, k * 2 ^ e.toNat, hdouble, hm,
      Nat.mul_ne_zero hk (Nat.two_pow_pos _).ne', hcancelled, hvalue.symm,
      hvalue ▸ hrange⟩
  · rw [ofNat, hdouble] at hfinite
    contradiction

theorem lt_self_eq_false (x : Double) : x.lt x = false := by
  cases x <;> simp [lt]

private theorem IsUnsigned.lt_zero_eq_false {x : Double} (h : x.IsUnsigned) :
    x.lt zero = false := by
  cases x with
  | nan => rfl
  | infinite negative => simp [show negative = false from h, lt, zero, signedZero]
  | finite negative m e =>
      obtain rfl : negative = false := h
      rw [Bool.eq_false_iff, zero, signedZero, Ne, lt_finite_iff]
      simp only [Nat.cast_zero, zero_mul, not_lt]
      positivity

private theorem isUnsigned_logQuotient {n d : Nat} (hone : d ≤ n) :
    (logQuotient n d).IsUnsigned := by
  rcases hone.eq_or_lt with rfl | hlt
  · simp [logQuotient, logBy, zero, signedZero, IsUnsigned]
  · obtain ⟨bits, -, hvalue, -⟩ :=
      exists_roundFixed_eq false (fixedLog · n d) precisions getLast?_precisions
    rw [logQuotient_eq_roundFixed hlt, hvalue]
    exact isUnsigned_ofRatio _ _

private theorem lt_logQuotient_of_whole {n d n' d' k k' : Nat} (hd : 0 < d)
    (hd' : 0 < d') (hvalue : (n / d : ℝ) = k) (hvalue' : (n' / d' : ℝ) = k')
    (hk : k ≠ 0) (hlt : k < k') (hrange : (k' : ℝ) < 2 ^ 1024) :
    (logQuotient n' d').lt (logQuotient n d) = false := by
  have hwhole : ∀ {n d k : Nat}, 0 < d → (n / d : ℝ) = k → n = k * d := by
    intro n d k hd h
    rw [div_eq_iff (by positivity)] at h
    exact_mod_cast h
  have hn := hwhole hd hvalue
  have hn' := hwhole hd' hvalue'
  have hone' : d' < n' := by
    rw [hn']
    exact lt_mul_of_one_lt_left hd' (by omega)
  rcases (show d ≤ n from hn ▸ Nat.le_mul_of_pos_left d (by omega)).eq_or_lt with
    heq | hone
  · have hzero : logQuotient n d = zero := by simp [logQuotient, logBy, heq]
    rw [hzero]
    exact (isUnsigned_logQuotient hone'.le).lt_zero_eq_false
  · refine lt_logQuotient_eq_false hd hd' hone hone' (hvalue' ▸ hrange) ?_
    rw [hvalue, hvalue']
    exact log_add_loss_le (Nat.pos_of_ne_zero hk) hlt hrange

theorem isFinite_ofNat_of_le {n m : Nat} (hnm : n ≤ m)
    (hfinite : (ofNat m).isFinite = true) :
    (ofNat n).isFinite = true := by
  have hnearest : nearest n 1 ≤ nearest m 1 := by
    refine nearest_le_nearest one_ne_zero one_ne_zero ?_
    gcongr
  rcases ofRatio_cases false m one_ne_zero with
    ⟨-, -, -, -, hrange, -⟩ | ⟨-, hdouble⟩
  · rcases ofRatio_cases false n one_ne_zero with ⟨p, e, hdouble, -⟩ | ⟨hpast, -⟩
    · rw [ofNat, hdouble]
      rfl
    · exact absurd hrange (hpast.trans hnearest).not_gt
  · rw [ofNat, hdouble] at hfinite
    contradiction

/-- In the range of doubles a greater whole number has no lesser logarithm. -/
theorem lt_ln_ofNat_eq_false {n m : Nat} (hn : n ≠ 0) (hnm : n ≤ m)
    (hfinite : (ofNat m).isFinite = true) :
    (ln (ofNat m)).lt (ln (ofNat n)) = false := by
  have hnearest : nearest n 1 ≤ nearest m 1 := by
    refine nearest_le_nearest one_ne_zero one_ne_zero ?_
    gcongr
  obtain ⟨q, f, k', hgreater, hq, hk', hvalue', hk'nearest, hrange⟩ :=
    exists_ofNat_eq (by omega) hfinite
  obtain ⟨p, e, k, hlesser, hp, hk, hvalue, hknearest, -⟩ :=
    exists_ofNat_eq hn (isFinite_ofNat_of_le hnm hfinite)
  have hkk' : k ≤ k' := by
    rw [hknearest, hk'nearest] at hnearest
    exact_mod_cast hnearest
  rcases hkk'.eq_or_lt with rfl | hlt
  · have hsame : ofNat n = ofNat m :=
      ofRatio_eq_of_nearest_eq false one_ne_zero one_ne_zero
        (hknearest.trans hk'nearest.symm)
    rw [hsame]
    exact lt_self_eq_false _
  · rw [← cast_ratio] at hvalue hvalue'
    rw [hlesser, hgreater, ln_finite hp, ln_finite hq]
    exact lt_logQuotient_of_whole (Nat.two_pow_pos _) (Nat.two_pow_pos _) hvalue
      hvalue' hk hlt
      hrange

/-! ## Numbers from two on -/

def half : Double := finite false (2 ^ 52) (-53)

def IsAtLeast (x bound : Double) : Prop := x.IsUnsigned ∧ x.lt bound = false

theorem isAtLeast_finite_iff {x : Double} {n : Nat} {f : Int} :
    x.IsAtLeast (finite false n f) ↔
    x = infinite false ∨ ∃ m e, x = finite false m e ∧
      (n * 2 ^ f : ℝ) ≤ m * 2 ^ e := by
  constructor
  · rintro ⟨hunsigned, hlt⟩
    cases x with
    | nan => exact hunsigned.elim
    | infinite negative =>
        exact .inl (by rw [show negative = false from hunsigned])
    | finite negative m e =>
        obtain rfl : negative = false := hunsigned
        rw [Bool.eq_false_iff, Ne, lt_finite_iff, not_lt] at hlt
        exact .inr ⟨m, e, rfl, hlt⟩
  · rintro (rfl | ⟨m, e, rfl, hvalue⟩)
    · exact ⟨rfl, rfl⟩
    · refine ⟨rfl, ?_⟩
      rw [Bool.eq_false_iff, Ne, lt_finite_iff, not_lt]
      exact hvalue

theorem isAtLeast_ofRatio {n d n' d' : Nat} (hd : d ≠ 0) (hd' : d' ≠ 0)
    (h : (n' / d' : ℝ) ≤ n / d) :
    (ofRatio false n d).IsAtLeast (ofRatio false n' d') :=
  ⟨isUnsigned_ofRatio n d, lt_ofRatio_eq_false hd' hd h⟩

private theorem two_pow_le_logTwo :
    ∀ bits ∈ precisions, 2 ^ bits ≤ 2 * logTwo bits := by
  decide +kernel

private theorem two_pow_le_fixedLog {bits n d : Nat} (hbits : bits ∈ precisions)
    (hd : 0 < d) (htwo : 2 * d ≤ n) : 2 ^ bits ≤ 2 * fixedLog bits n d := by
  obtain ⟨-, -, hhigh⟩ := powerPart_bounds hd (by omega : d ≤ n)
  have hexponent : (binaryExponent n d).toNat ≠ 0 := by
    intro hzero
    rw [hzero, pow_zero, mul_one] at hhigh
    omega
  calc 2 ^ bits ≤ 2 * logTwo bits := two_pow_le_logTwo bits hbits
    _ ≤ 2 * ((binaryExponent n d).toNat * logTwo bits) := by
        refine Nat.mul_le_mul_left 2 (Nat.le_mul_of_pos_left _ ?_)
        omega
    _ ≤ 2 * fixedLog bits n d := Nat.mul_le_mul_left 2 (Nat.le_add_right _ _)

private theorem isAtLeast_half_logQuotient {n d : Nat} (hd : 0 < d)
    (htwo : 2 * d ≤ n) :
    (logQuotient n d).IsAtLeast half := by
  obtain ⟨bits, hbits, hvalue, -⟩ :=
    exists_roundFixed_eq false (fixedLog · n d) precisions getLast?_precisions
  have hhalf : half = ofRatio false 1 2 := by decide
  rw [logQuotient_eq_roundFixed (by omega), hvalue, hhalf]
  refine isAtLeast_ofRatio (Nat.two_pow_pos _).ne' two_ne_zero ?_
  rw [div_le_div_iff₀ (by norm_num) (by positivity)]
  have := two_pow_le_fixedLog hbits hd htwo
  rw [mul_comm 2] at this
  exact_mod_cast (one_mul _).trans_le this

private theorem ofNat_two : ofNat 2 = finite false (2 ^ 52) (-51) := by decide

theorem IsAtLeast.cases_two {x : Double} (h : x.IsAtLeast (ofNat 2)) :
    x = infinite false ∨ ∃ m e, x = finite false m e ∧ (2 : ℝ) ≤ m * 2 ^ e := by
  have hvalue : ((2 ^ 52 : Nat) : ℝ) * 2 ^ (-51 : Int) = 2 := by norm_num
  rw [ofNat_two, isAtLeast_finite_iff, hvalue] at h
  exact h

theorem isAtLeast_half_ln {x : Double} (h : x.IsAtLeast (ofNat 2)) :
    (ln x).IsAtLeast half := by
  rcases h.cases_two with rfl | ⟨m, e, rfl, hvalue⟩
  · exact ⟨rfl, rfl⟩
  · have hm : m ≠ 0 := by
      rintro rfl
      norm_num at hvalue
    rw [← cast_ratio, le_div_iff₀ (by positivity)] at hvalue
    rw [ln_finite hm]
    exact isAtLeast_half_logQuotient (Nat.two_pow_pos _)
      (by exact_mod_cast hvalue)

/-! ## Whole numbers past the range -/

def IsSmall (x : Double) : Prop :=
  ∃ negative m e, x = finite negative m e ∧ m * 2 ^ e.toNat ≤ 2 ^ (-e).toNat

theorem isSmall_finite {negative : Bool} {m : Nat} {e : Int}
    (h : (m * 2 ^ e : ℝ) ≤ 1) :
    (finite negative m e).IsSmall := by
  rw [← cast_ratio, div_le_one (by positivity)] at h
  exact ⟨negative, m, e, rfl, by exact_mod_cast h⟩

theorem IsSmall.exists_eq {x : Double} (hx : x.IsSmall) :
    ∃ negative m e, x = finite negative m e ∧ (m * 2 ^ e : ℝ) ≤ 1 := by
  obtain ⟨negative, m, e, rfl, hsmall⟩ := hx
  refine ⟨negative, m, e, rfl, ?_⟩
  rw [← cast_ratio, div_le_one (by positivity)]
  exact_mod_cast hsmall

private theorem nearest_one : nearest 1 1 = 1 := by
  have hnormal : IsNormal (2 ^ 52) (-52) := by decide
  simpa using nearest_of_isNormal one_ne_zero hnormal (n := 1) (by norm_num)

theorem nearest_half : nearest 1 2 = 1 / 2 := by
  have hnormal : IsNormal (2 ^ 52) (-53) := by decide
  simpa using nearest_of_isNormal two_ne_zero hnormal (n := 1) (by norm_num)

theorem nearest_three : nearest 3 1 = 3 := by
  have hnormal : IsNormal (3 * 2 ^ 51) (-51) := by decide
  simpa using nearest_of_isNormal one_ne_zero hnormal (n := 3) (by norm_num)

theorem exists_ofRatio_eq (negative : Bool) {n d : Nat} (hd : 0 < d) (h : n ≤ d) :
    ∃ m e, ofRatio negative n d = finite negative m e ∧
      (m * 2 ^ e : ℝ) = nearest n d ∧
      nearest n d ≤ 1 := by
  have hnearest : nearest n d ≤ 1 := by
    rw [← nearest_one]
    refine nearest_le_nearest hd.ne' one_ne_zero ?_
    rw [Nat.cast_one, div_one, div_le_one (by exact_mod_cast hd)]
    exact_mod_cast h
  rcases ofRatio_cases negative n hd.ne' with
    ⟨m, e, hdouble, hvalue, -⟩ | ⟨hpast, -⟩
  · exact ⟨m, e, hdouble, hvalue, hnearest⟩
  · exact absurd (hpast.trans hnearest)
      (one_lt_pow₀ one_lt_two (by norm_num)).not_ge

private theorem isSmall_ofRatio (negative : Bool) {n d : Nat} (hd : 0 < d)
    (h : n ≤ d) :
    (ofRatio negative n d).IsSmall := by
  obtain ⟨m, e, hdouble, hvalue, hone⟩ := exists_ofRatio_eq negative hd h
  rw [hdouble]
  exact isSmall_finite (hvalue.trans_le hone)

private theorem isSmall_logQuotient {n d : Nat} (hd : 0 < d) (hbelow : n ≤ d)
    (hhalf : d ≤ 2 * n) :
    (logQuotient n d).IsSmall := by
  rcases hbelow.eq_or_lt with rfl | hlt
  · have hzero : logQuotient n n = finite false 0 leastExponent := by
      simp [logQuotient, logBy, zero, signedZero]
    rw [hzero]
    exact isSmall_finite (by simp)
  · obtain ⟨bits, -, hvalue, -⟩ :=
      exists_roundFixed_eq true (fixedLog · d n) precisions getLast?_precisions
    rw [logQuotient_below_eq_roundFixed hlt, hvalue]
    refine isSmall_ofRatio true (Nat.two_pow_pos _) ?_
    have hn : 0 < n := by omega
    have hlog : Real.log (d / n) ≤ 1 := by
      refine (Real.log_le_sub_one_of_pos (by positivity)).trans ?_
      rw [sub_le_iff_le_add, div_le_iff₀ (by exact_mod_cast hn)]
      have : (d : ℝ) ≤ 2 * n := by exact_mod_cast hhalf
      linarith
    have hfixed : (fixedLog bits d n : ℝ) ≤ 2 ^ bits * 1 :=
      (fixedLog_bounds bits hn hbelow).1.trans (by gcongr)
    rw [mul_one] at hfixed
    exact_mod_cast hfixed

private theorem exists_mantissa_eq {n : Nat} (hn : n ≠ 0) :
    ∃ m e, (mantissa n).1 = finite false m e ∧
    (1 / 2 : ℝ) ≤ m * 2 ^ e ∧ (m * 2 ^ e : ℝ) ≤ 1 := by
  have hwidth : 0 < 2 ^ (n.log2 + 1) := Nat.two_pow_pos _
  have hlow : 2 ^ (n.log2 + 1) ≤ 2 * n := by
    rw [pow_succ']
    exact Nat.mul_le_mul_left 2 (Nat.log2_self_le hn)
  have hhigh : n < 2 ^ (n.log2 + 1) := Nat.lt_log2_self
  have hlowNearest : 1 / 2 ≤ nearest n (2 ^ (n.log2 + 1)) := by
    rw [← nearest_half]
    refine nearest_le_nearest two_ne_zero hwidth.ne' ?_
    rw [div_le_div_iff₀ (by norm_num) (by positivity), Nat.cast_one, one_mul,
      mul_comm]
    exact_mod_cast hlow
  unfold mantissa
  dsimp only
  split
  · have hhalf : ofRatio false 1 2 = finite false (2 ^ 52) (-53) := by decide
    exact ⟨2 ^ 52, -53, hhalf, by norm_num, by norm_num⟩
  · obtain ⟨m, e, hdouble, hvalue, hone⟩ :=
      exists_ofRatio_eq false hwidth hhigh.le
    exact ⟨m, e, hdouble, hvalue ▸ hlowNearest, hvalue ▸ hone⟩

theorem isSmall_ln_mantissa {n : Nat} (hn : n ≠ 0) :
    (ln (mantissa n).1).IsSmall := by
  obtain ⟨m, e, hmantissa, hlow, hhigh⟩ := exists_mantissa_eq hn
  have hm : m ≠ 0 := by
    rintro rfl
    norm_num at hlow
  rw [← cast_ratio] at hlow hhigh
  rw [div_le_div_iff₀ (by norm_num) (by positivity), one_mul] at hlow
  rw [div_le_one (by positivity)] at hhigh
  rw [hmantissa, ln_finite hm]
  refine isSmall_logQuotient (Nat.two_pow_pos _) (by exact_mod_cast hhigh) ?_
  rw [mul_comm 2]
  exact_mod_cast hlow

theorem three_le_exponent {n : Nat} (hfinite : (ofNat n).isFinite = false) :
    3 ≤ (mantissa n).2 := by
  have hfour : 4 ≤ n := by
    by_contra hless
    have hsmall : ∀ n < 4, (ofNat n).isFinite = true := by decide
    simp [hsmall n (by omega)] at hfinite
  have hlog : 2 ≤ n.log2 := (Nat.le_log2 (by omega)).2 hfour
  unfold mantissa
  dsimp only
  split <;> dsimp only <;> omega

private theorem neg_le_aligned (negative : Bool) {m : Nat} {e base : Int}
    (h : base ≤ e) :
    -(m * 2 ^ e : ℝ) ≤ aligned negative m e base * 2 ^ base := by
  have hmagnitude := cast_aligned (m := m) h
  have hnonneg : (0 : ℝ) ≤ m * 2 ^ e := by positivity
  cases negative with
  | false =>
      rw [hmagnitude]
      linarith
  | true =>
      have hopposite : aligned true m e base = -aligned false m e base := by
        simp [aligned]
      rw [hopposite, Int.cast_neg, neg_mul, hmagnitude]

theorem isAtLeast_ofScaled {m n d : Nat} {e : Int} (hd : d ≠ 0)
    (h : (n / d : ℝ) ≤ m * 2 ^ e) :
    (ofScaled false m e).IsAtLeast (ofRatio false n d) := by
  rw [← cast_ratio] at h
  exact isAtLeast_ofRatio (Nat.two_pow_pos _).ne' hd h

private theorem isAtLeast_one_add {x y : Double} (hx : x.IsSmall)
    (hy : y.IsAtLeast (ofNat 2)) :
    (add x y).IsAtLeast one := by
  obtain ⟨negative, m, e, rfl, hsmall⟩ := hx.exists_eq
  have hone : one = ofRatio false 1 1 := by decide
  rcases hy.cases_two with rfl | ⟨n, f, rfl, hvalue⟩
  · exact ⟨rfl, rfl⟩
  · set base := min e f
    set sum := aligned negative m e base + aligned false n f base with hsum
    have hatLeast : (1 : ℝ) ≤ sum * 2 ^ base := by
      have hleft := neg_le_aligned negative (m := m) (min_le_left e f)
      have hright := cast_aligned (m := n) (min_le_right e f)
      rw [hsum, Int.cast_add, add_mul, hright]
      linarith
    have hpositive : 0 < sum := by
      have hreal : (0 : ℝ) < sum := by
        by_contra hnot
        have := mul_nonpos_of_nonpos_of_nonneg (not_lt.1 hnot)
            (by positivity : (0 : ℝ) ≤ 2 ^ base)
        linarith
      exact_mod_cast hreal
    have hresult : add (finite negative m e) (finite false n f) =
        ofScaled false sum.natAbs base := by
      change (if sum = 0 then _
        else ofScaled (decide (sum < 0)) sum.natAbs base) = _
      rw [if_neg hpositive.ne', decide_eq_false hpositive.not_gt]
    have hmagnitude : ((sum.natAbs : Nat) : ℝ) = sum := by
      rw [Nat.cast_natAbs, abs_of_pos hpositive]
    rw [hresult, hone]
    refine isAtLeast_ofScaled one_ne_zero ?_
    rw [hmagnitude, Nat.cast_one, div_one]
    exact hatLeast

private theorem isAtLeast_two_mul {k : Nat} (hk : 3 ≤ k) :
    (mul (ln (ofNat 2)) (ofNat k)).IsAtLeast (ofNat 2) := by
  have hlog : ln (ofNat 2) = finite false 6243314768165359 (-53) := by
    decide +kernel
  have hnearest : 3 ≤ nearest k 1 := by
    rw [← nearest_three]
    refine nearest_le_nearest one_ne_zero one_ne_zero ?_
    gcongr
  rw [hlog]
  rcases ofRatio_cases false k one_ne_zero with
    ⟨m, e, hdouble, hvalue, -⟩ | ⟨-, hdouble⟩
  · rw [← hvalue] at hnearest
    rw [ofNat, hdouble]
    refine isAtLeast_ofScaled one_ne_zero ?_
    calc ((2 : Nat) / (1 : Nat) : ℝ) ≤
      6243314768165359 * 2 ^ (-53 : Int) * 3 := by norm_num
      _ ≤ 6243314768165359 * 2 ^ (-53 : Int) * (m * 2 ^ e) := by gcongr
      _ = (6243314768165359 * m : Nat) * 2 ^ (-53 + e) := by
          rw [zpow_add₀ two_ne_zero]
          push_cast
          ring
  · rw [ofNat, hdouble]
    exact ⟨rfl, rfl⟩

theorem isAtLeast_half_logNat {n : Nat} (hn : 2 ≤ n) :
    (logNat ln n).IsAtLeast half := by
  unfold logNat
  split
  · refine isAtLeast_half_ln (isAtLeast_ofRatio one_ne_zero one_ne_zero ?_)
    gcongr
  · next hfinite =>
      have hone :
          (add (ln (mantissa n).1)
            (mul (ln (ofNat 2)) (ofNat (mantissa n).2))).IsAtLeast one :=
        isAtLeast_one_add (isSmall_ln_mantissa (by omega))
          (isAtLeast_two_mul (three_le_exponent (by simpa using hfinite)))
      rw [one, isAtLeast_finite_iff] at hone
      refine isAtLeast_finite_iff.2 (hone.imp_right ?_)
      rintro ⟨m, e, hdouble, hvalue⟩
      refine ⟨m, e, hdouble, le_trans ?_ hvalue⟩
      norm_num

end SnippetGrowth.Double
