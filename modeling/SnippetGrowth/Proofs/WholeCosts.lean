import Mathlib.Data.Nat.Factorial.Basic
import SnippetGrowth.Proofs.CurvePoints
import SnippetGrowth.Proofs.NearestDoubles

/-!
# Curves of whole numbers

The costs of two functions are whole numbers that are rounded once: the
factorial and the size itself.  Such a cost is left out exactly if it is not
below the middle between the greatest double and the power of two behind it,
and else is the nearest double.  The greatest factorial that is computed is the
greatest one below that middle, so the cut-off leaves out no value that a double
holds.  Rounding keeps the order, and with it a curve of growing sizes rises
until it breaks off for good.
-/

namespace SnippetGrowth

namespace GrowthFunction

/-! ## Exact costs -/

/-- The functions whose costs are whole numbers, with these costs. -/
inductive HasCost : GrowthFunction → (Nat → Nat) → Prop
  | factorial : HasCost .factorial Nat.factorial
  | identity : HasCost .identity id

theorem HasCost.monotone {f : GrowthFunction} {cost : Nat → Nat}
    (h : HasCost f cost) :
    Monotone cost := by
  cases h with
  | factorial => exact Nat.monotone_factorial
  | identity => exact monotone_id

theorem factorialOf_eq (n : Nat) : factorialOf n = n.factorial := by
  induction n with
  | zero => rfl
  | succ n ih => rw [factorialOf, ih, Nat.factorial_succ]

/-- The greatest factorial that is computed is the greatest one below the range
limit. -/
theorem factorial_lt_leastOverflow_iff {n : Nat} :
    n.factorial < Double.leastOverflow ↔ n ≤ greatestFactorial := by
  have hlast : factorialOf greatestFactorial < Double.leastOverflow := by
    decide +kernel
  have hnext : Double.leastOverflow ≤ factorialOf (greatestFactorial + 1) := by
    decide +kernel
  rw [factorialOf_eq] at hlast hnext
  constructor
  · intro hsmall
    refine Nat.le_of_lt_succ (Nat.lt_of_not_le fun hlarge => ?_)
    exact (hnext.trans (Nat.factorial_le hlarge)).not_gt hsmall
  · exact fun hn => (Nat.factorial_le hn).trans_lt hlast

/-! ## Rounded costs -/

/-- Whether a value is a whole number rounded once, and left out where it is
past the range. -/
def IsRoundedOnce (exact : Nat) (value : Option Double) : Prop :=
  (value = none ↔ Double.leastOverflow ≤ exact) ∧
    ∀ x, value = some x → x = Double.ofNat exact ∧ x.IsNearest exact

theorem sizeValue?_eq (n : Nat) :
    sizeValue? n = if n < Double.leastOverflow then some (Double.ofNat n)
      else none := by
  simp only [sizeValue?, Double.isFinite_ofNat_iff]

theorem isRoundedOnce_sizeValue? (n : Nat) : IsRoundedOnce n (sizeValue? n) := by
  constructor
  · simp [sizeValue?_eq]
  · intro x hx
    obtain ⟨hfinite, rfl⟩ := sizeValue?_eq_some_iff.1 hx
    exact ⟨rfl, Double.isNearest_ofNat hfinite⟩

def NotAbove : Option Double → Option Double → Prop
  | _, none => True
  | none, some _ => False
  | some x, some y => x.toReal ≤ y.toReal

theorem notAbove_sizeValue? {n m : Nat} (h : n ≤ m) :
    NotAbove (sizeValue? n) (sizeValue? m) := by
  cases hm : sizeValue? m with
  | none =>
      cases sizeValue? n <;> trivial
  | some y =>
      obtain ⟨hfinite, rfl⟩ := sizeValue?_eq_some_iff.1 hm
      have hn :=
        sizeValue?_eq_some_iff.2 ⟨Double.isFinite_ofNat_of_le h hfinite, rfl⟩
      rw [hn]
      exact Double.toReal_ofNat_le h hfinite

/-! ## Values -/

private theorem filter_sizeValue? (n : Nat) :
    (sizeValue? n).filter Double.isFinite = sizeValue? n := by
  cases h : sizeValue? n with
  | none => rfl
  | some x =>
      obtain ⟨hfinite, rfl⟩ := sizeValue?_eq_some_iff.1 h
      rw [Option.filter_some, if_pos hfinite]

private theorem rawValue_factorial {n : Nat} (hshort : n < 10 ^ digitLimit) :
    rawValue n .factorial = .ok (sizeValue? n.factorial) := by
  rw [rawValue, sizeValue?_eq, factorialOf_eq]
  rcases Nat.lt_or_ge greatestFactorial n with hlarge | hsmall
  · have hpast : ¬ n.factorial < Double.leastOverflow :=
      factorial_lt_leastOverflow_iff.not.2 (Nat.not_le.2 hlarge)
    rw [if_pos hlarge, if_neg hpast, wholeText,
      if_pos (by rwa [Int.natAbs_natCast])]
    rfl
  · rw [if_neg (Nat.not_lt.2 hsmall),
      if_pos (factorial_lt_leastOverflow_iff.2 hsmall)]

private theorem value_of_hasCost {f : GrowthFunction} {cost : Nat → Nat}
    (h : HasCost f cost) {n : Nat} (hlacks : ∀ failure, ¬ Lacks f n failure) :
    f.value n = .ok (sizeValue? (cost n)) := by
  cases h with
  | factorial =>
      have hshort : n < 10 ^ digitLimit :=
        Nat.lt_of_not_le fun hlong => hlacks _ (.overlongFactorial hlong)
      rw [value, rawValue_factorial hshort, Except.map, filter_sizeValue?]
  | identity => rw [value, rawValue, Except.map, filter_sizeValue?, id]

end GrowthFunction

namespace Curve

open GrowthFunction

/-! ## Curves -/

variable {label : String} {cost : Nat → Nat}

private theorem not_lacks_of_hasCost (whole : HasCost (ofLabel label) cost)
    {sizes : List Nat} (h : ¬ LacksFactorial label (sizes.map Nat.cast))
    {n : Nat} (hn : n ∈ sizes) (failure : Failure) :
    ¬ (ofLabel label).Lacks n failure := by
  intro hlacks
  rcases lacks_iff.1 hlacks with ⟨-, hpower, -⟩ | ⟨-, hfactorial, hlong⟩
  · obtain ⟨significand, exponent, -, hfunction⟩ := hpower
    rw [hfunction] at whole
    cases whole
  · refine h ⟨hfactorial, n, List.mem_map_of_mem hn, ?_⟩
    exact_mod_cast hlong

private theorem sample_of_hasCost (whole : HasCost (ofLabel label) cost)
    {sizes : List Nat} (h : ¬ LacksFactorial label (sizes.map Nat.cast)) :
    sample label (sizes.map Nat.cast) =
      .ok ⟨label, sizes.map Nat.cast,
        sizes.map fun n => sizeValue? (cost n)⟩ := by
  refine sample_eq_ok_iff.2 ⟨rfl, rfl, ?_⟩
  rw [List.forall₂_map_left_iff, List.forall₂_map_right_iff, List.forall₂_same]
  intro n hn
  exact ⟨Int.natCast_nonneg n,
    value_of_hasCost whole (not_lacks_of_hasCost whole h hn)⟩

theorem sample_eq_tooLongToWrite_iff (label : String) (sizes : List Nat) :
    sample label (sizes.map Nat.cast) = .error .tooLongToWrite ↔
      LacksFactorial label (sizes.map Nat.cast) := by
  have hnonneg : ¬ ∃ n ∈ sizes.map (Nat.cast : Nat → Int), n < 0 := by simp
  rw [(outcome_sample _ _).eq_tooLongToWrite_iff, and_iff_right hnonneg]

end Curve

open GrowthFunction

/--
A curve of whole costs is sampled unless a factorial is due at a size that
cannot be written.  A value is left out exactly if its cost is not below the
middle between the greatest double and the power of two behind it, and is the
nearest double to the cost otherwise.  Over growing sizes no value is below an
earlier one, and none follows one that is left out.
-/
theorem whole_costs_rounded_once {label : String} {cost : Nat → Nat}
    (whole : HasCost (.ofLabel label) cost) (sizes : List Nat) :
    (Curve.sample label (sizes.map Nat.cast) = .error .tooLongToWrite ↔
        Curve.LacksFactorial label (sizes.map Nat.cast)) ∧
      (¬ Curve.LacksFactorial label (sizes.map Nat.cast) → ∃ values,
        Curve.sample label (sizes.map Nat.cast) =
          .ok ⟨label, sizes.map Nat.cast, values⟩ ∧
        List.Forall₂ (fun n value => IsRoundedOnce (cost n) value) sizes values ∧
        (sizes.Pairwise (· ≤ ·) → values.Pairwise NotAbove)) := by
  refine ⟨Curve.sample_eq_tooLongToWrite_iff label sizes, fun hlacks =>
    ⟨_, Curve.sample_of_hasCost whole hlacks, ?_, fun hgrows => ?_⟩⟩
  · rw [List.forall₂_map_right_iff, List.forall₂_same]
    exact fun n _ => isRoundedOnce_sizeValue? (cost n)
  · rw [List.pairwise_map]
    exact hgrows.imp fun hle => notAbove_sizeValue? (whole.monotone hle)

theorem whole_costs_rounded_once_factorials :
    HasCost (.ofLabel "O(n!)") Nat.factorial ∧
      ∃ values,
        Curve.sample "O(n!)" [3, 170, 171] =
          .ok ⟨"O(n!)", [3, 170, 171], values⟩ ∧
        values.Pairwise NotAbove := by
  have whole : HasCost (.ofLabel "O(n!)") Nat.factorial := by
    have hfunction : GrowthFunction.ofLabel "O(n!)" = .factorial := by decide
    rw [hfunction]
    exact .factorial
  obtain ⟨-, hsampled⟩ := whole_costs_rounded_once whole [3, 170, 171]
  have hshort : ¬ Curve.LacksFactorial "O(n!)" [3, 170, 171] := by
    rintro ⟨-, n, hn, hlong⟩
    have hsmall : ∀ n ∈ [(3 : Int), 170, 171], n < (10 ^ 3 : Nat) := by decide
    have hlimit : ((10 ^ 3 : Nat) : Int) ≤ (10 ^ digitLimit : Nat) :=
      Int.ofNat_le.2 (Nat.pow_le_pow_right (by decide) (by decide))
    push_cast at hlimit
    exact (hlimit.trans hlong).not_gt (hsmall n hn)
  obtain ⟨values, hvalues, -, hrises⟩ := hsampled hshort
  exact ⟨whole, values, hvalues, hrises (by decide)⟩

/-- A factorial is past the range of doubles at the first size that cannot be
written, yet the curve is not sampled there, and no value is left out. -/
theorem overlong_factorial_not_left_out :
    ¬ (Curve.sample "n!" [((10 ^ digitLimit : Nat) : Int)] =
          .ok ⟨"n!", [((10 ^ digitLimit : Nat) : Int)], [none]⟩ ↔
        Double.leastOverflow ≤ (10 ^ digitLimit).factorial) ∧
      Curve.sample "n!" [((10 ^ digitLimit : Nat) : Int)] =
        .error .tooLongToWrite := by
  have hfunction : GrowthFunction.ofLabel "n!" = .factorial := by decide
  have hfails : Curve.sample "n!" [((10 ^ digitLimit : Nat) : Int)] =
      .error .tooLongToWrite := by
    refine (Curve.sample_eq_tooLongToWrite_iff "n!" [10 ^ digitLimit]).2
      ⟨hfunction, _, List.mem_singleton_self _, ?_⟩
    push_cast
    exact le_rfl
  have hlarge : Double.leastOverflow ≤ (10 ^ digitLimit).factorial :=
    Nat.le_of_not_lt
      (factorial_lt_leastOverflow_iff.not.2 (Nat.not_le.2 greatestFactorial_lt))
  refine ⟨fun h => ?_, hfails⟩
  rw [h.2 hlarge] at hfails
  cases hfails

end SnippetGrowth
