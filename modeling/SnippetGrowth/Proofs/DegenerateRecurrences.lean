import SnippetGrowth.Proofs.Limits
import SnippetGrowth.Proofs.Magnitudes

/-!
# Degenerate recurrences

A logarithm exists for positive numbers only, and zero divides nothing.  The
critical exponent takes logarithms and divides behind guards, and the guards
cover every pair of numbers: with operations that may fail, the same exponent
comes out and no fault.

For whole factors within the digit limit and constant extra work the guards are
seen in the solution.  A logarithm comes from a single branch or a reduction by
zero, an infinite power from several branches without reduction, and all other
factors have a finite exponent above zero.
-/

namespace SnippetGrowth

/-! ## Arithmetic that may fail -/

inductive ArithmeticFault where
  /-- The logarithm of a number that is not positive. -/
  | logarithm
  /-- A division by zero. -/
  | division
  deriving DecidableEq, Repr

namespace Number

def isPositive : Number → Bool
  | whole n => 0 < n
  | real x => x.isPositive

def isZero : Number → Bool
  | whole n => n = 0
  | real x => x.isZero

def checkedLog : Number → Except ArithmeticFault Double
  | whole n =>
      if 0 < n then .ok (Double.logNat Double.ln n.toNat) else .error .logarithm
  | real x => if x.isZero || x.isNegative then .error .logarithm else .ok x.ln

/-- The logarithm of positive numbers, with an infinity for zero and nothing for
the others. -/
def guardedLog (number : Number) : Except ArithmeticFault Double :=
  if number.isPositive then number.checkedLog
  else .ok (if number.isZero then .infinite true else .nan)

end Number

namespace Double

def checkedDiv (x y : Double) : Except ArithmeticFault Double :=
  if y.isZero then .error .division else .ok (x.div y)

private theorem isPositive_finite (negative : Bool) (m : Nat) (e : Int) :
    (finite negative m e).isPositive = (!negative && m != 0) := by
  have hzero : ∀ base, aligned false 0 leastExponent base = 0 := by simp [aligned]
  rw [isPositive, zero, signedZero, lt, hzero, aligned, Bool.eq_iff_iff]
  cases negative with
  | true => simp
  | false => simp [Nat.pos_iff_ne_zero]

end Double

def checkedExponent (branching reduction : Number) :
    Except ArithmeticFault Double := do
  let upper ← branching.guardedLog
  let lower ← reduction.guardedLog
  if lower.isZero then
    .ok (if upper.isZero || upper.isNan then .nan else .infinite upper.isNegative)
  else upper.checkedDiv lower

def checkedSolution (branching reduction : Number) (work : String) :
    Except ArithmeticFault Bound :=
  (checkedExponent branching reduction).map fun exponent =>
    growthOf exponent (ExtraWork.ofText? work)

private theorem Number.guardedLog_eq (number : Number) :
    number.guardedLog = .ok number.ln := by
  cases number with
  | whole n =>
      by_cases hpositive : 0 < n
      · simp [guardedLog, isPositive, checkedLog, ln, hpositive]
      · simp [guardedLog, isPositive, isZero, ln, hpositive]
  | real x =>
      cases x with
      | nan => rfl
      | infinite negative => cases negative <;> rfl
      | finite negative m e =>
          rw [guardedLog, isPositive, Double.isPositive_finite]
          cases m with
          | zero => simp [isZero, Double.isZero, ln, Double.ln, Double.logarithm]
          | succ m =>
              cases negative with
              | true =>
                  simp [isZero, Double.isZero, ln, Double.ln, Double.logarithm]
              | false => simp [checkedLog, Double.isZero, Double.isNegative, ln]

/-- Only numbers other than zero come to the division. -/
theorem checkedExponent_eq (branching reduction : Number) :
    checkedExponent branching reduction =
      .ok (criticalExponent branching reduction) := by
  have hvalue : checkedExponent branching reduction =
      if reduction.ln.isZero then
        .ok (if branching.ln.isZero || branching.ln.isNan then .nan
          else .infinite branching.ln.isNegative)
      else branching.ln.checkedDiv reduction.ln := by
    rw [checkedExponent, branching.guardedLog_eq, reduction.guardedLog_eq]
    rfl
  rw [hvalue, criticalExponent]
  split
  · rfl
  · next hlower => rw [Double.checkedDiv, if_neg hlower]

theorem checkedSolution_eq (branching reduction : Number) (work : String) :
    checkedSolution branching reduction work =
      .ok (solveRecurrence branching reduction work) := by
  rw [checkedSolution, checkedExponent_eq]
  rfl

/-! ## Exponents of whole factors -/

section

variable {a b : Nat}

theorem isPositive_signedZero (negative : Bool) :
    (Double.signedZero negative).isPositive = false := by
  cases negative <;> decide

theorem isPositive_criticalExponent_zero (ha : a ≠ 0) :
    (criticalExponent (.whole a) (.whole 0)).isPositive = false := by
  have hlower : (Number.whole 0).ln = .infinite true := by decide
  have hunsigned := Number.isUnsigned_ln_whole ha
  have hquotient : criticalExponent (.whole a) (.whole 0) =
      (Number.whole a).ln.div (.infinite true) := by
    simp [criticalExponent, hlower, Double.isZero]
  rw [hquotient]
  cases hupper : (Number.whole a).ln with
  | nan => rfl
  | infinite negative => rfl
  | finite negative m e => exact isPositive_signedZero _

theorem isPositive_criticalExponent_one (hb : b ≠ 0) :
    (criticalExponent (.whole 1) (.whole b)).isPositive = false := by
  rcases eq_or_ne b 1 with rfl | hone
  · rw [Nat.cast_one, criticalExponent_one_one]
    rfl
  · have hlower := Number.isAtLeast_half_ln_whole (n := b) (by omega)
    have hquotient : criticalExponent (.whole 1) (.whole b) =
        Double.zero.div (Number.whole b).ln := by
      simp [criticalExponent, hlower.of_half.1, Number.ln_one]
    rw [hquotient]
    rcases Double.isAtLeast_finite_iff.1 hlower with
      hinfinite | ⟨n, f, hfinite, -⟩
    · rw [hinfinite]
      exact isPositive_signedZero _
    · have hn : n ≠ 0 := by
        rintro rfl
        have hzero := hlower.of_half.1
        rw [hfinite] at hzero
        contradiction
      rw [hfinite, Double.zero, Double.signedZero, Double.div_finite hn,
        Nat.zero_mul]
      exact isPositive_signedZero _

theorem criticalExponent_of_two_le (ha : 2 ≤ a) (hb : 2 ≤ b)
    (ha' : a < 10 ^ digitLimit) (hb' : b < 10 ^ digitLimit) :
    (criticalExponent (.whole a) (.whole b)).isFinite = true ∧
      (criticalExponent (.whole a) (.whole b)).isPositive = true := by
  have hupper := Number.isAtLeast_half_ln_whole ha
  have hlower := Number.isAtLeast_half_ln_whole hb
  have hquotient : criticalExponent (.whole a) (.whole b) =
      (Number.whole a).ln.div (Number.whole b).ln := by
    simp [criticalExponent, hlower.of_half.1]
  have hwithin : ∀ {n : Nat}, 2 ≤ n → n < 10 ^ digitLimit →
      (Number.whole n).ln.IsWithin 16 := by
    intro n hn hlimit
    rw [Number.ln_whole (by omega)]
    exact Double.isWithin_logNat (by omega) hlimit
  rw [hquotient]
  exact Double.div_of_isWithin hupper (hwithin ha ha') hlower (hwithin hb hb')

end

/-! ## Solutions with constant work -/

theorem solveRecurrence_constant (branching reduction : Number) :
    solveRecurrence branching reduction "O(1)" =
      if (criticalExponent branching reduction).isPositive then
        powerBound (criticalExponent branching reduction)
      else .ofLabel "log n" := by
  have hlog : Bound.ofExpression "log n" = .ofLabel "log n" := by decide
  rw [solveRecurrence, show ExtraWork.ofText? "O(1)" = some .constant from rfl,
    growthOf, hlog]

private theorem powerBound_ne_log (exponent : Double) :
    powerBound exponent ≠ .ofLabel "log n" := by
  rw [powerBound_eq]
  exact fun h => powerLabel_ne_log _ (Bound.ofLabel_injective h)

private theorem powerBound_ne_infinite {exponent : Double}
    (h : exponent.isFinite = true) :
    powerBound exponent ≠ .ofLabel "n^inf" := by
  rw [powerBound_eq]
  intro hbound
  have hlabel := Bound.ofLabel_injective hbound
  have hpoint : '.' ∈ (exponent.fixedText 4).toList := by
    cases exponent with
    | nan => contradiction
    | infinite negative => contradiction
    | finite negative m e =>
        cases negative <;>
          simp [Double.fixedText, Double.signText, Double.withPoint]
  unfold powerLabel at hlabel
  split at hlabel
  · exact absurd hlabel (by decide)
  · split at hlabel
    · exact absurd hlabel (by decide)
    · have htext : (exponent.fixedText 4).toList = ['i', 'n', 'f'] := by
        simpa [← String.toList_inj, String.toList_append] using hlabel
      rw [htext] at hpoint
      exact absurd hpoint (by decide)

/-- The solutions with constant work: a logarithm, an infinite power or a power
with a finite exponent, by the two factors of the recurrence. -/
inductive DecidedByFactors (a b : Int) (exponent : Double) : Bound → Prop
  | logarithm (h : a = 1 ∨ b = 0) :
      DecidedByFactors a b exponent (.ofLabel "log n")
  | infinite (ha : 2 ≤ a) (hb : b = 1) :
      DecidedByFactors a b exponent (.ofLabel "n^inf")
  | power (ha : 2 ≤ a) (hb : 2 ≤ b) (hfinite : exponent.isFinite = true)
      (hpositive : exponent.isPositive = true) :
      DecidedByFactors a b exponent (powerBound exponent)

namespace DecidedByFactors

variable {a b : Int} {exponent : Double} {solution : Bound}

theorem logarithm_iff (h : DecidedByFactors a b exponent solution) :
    solution = .ofLabel "log n" ↔ a = 1 ∨ b = 0 := by
  cases h with
  | logarithm h => exact iff_of_true rfl h
  | infinite ha hb =>
      refine iff_of_false (fun hlabel =>
        absurd (Bound.ofLabel_injective hlabel) (by decide)) ?_
      omega
  | power ha hb =>
      refine iff_of_false (powerBound_ne_log exponent) ?_
      omega

theorem infinite_iff (h : DecidedByFactors a b exponent solution) :
    solution = .ofLabel "n^inf" ↔ 2 ≤ a ∧ b = 1 := by
  cases h with
  | logarithm h =>
      refine iff_of_false (fun hlabel =>
        absurd (Bound.ofLabel_injective hlabel) (by decide)) ?_
      omega
  | infinite ha hb => exact iff_of_true rfl ⟨ha, hb⟩
  | power ha hb hfinite =>
      refine iff_of_false (powerBound_ne_infinite hfinite) ?_
      omega

private theorem power_of_not (h : DecidedByFactors a b exponent solution)
    (hlog : ¬ (a = 1 ∨ b = 0)) (hinfinite : ¬ (2 ≤ a ∧ b = 1)) :
    exponent.isFinite = true ∧ exponent.isPositive = true ∧
    solution = powerBound exponent := by
  cases h with
  | logarithm h => exact absurd h hlog
  | infinite ha hb => exact absurd ⟨ha, hb⟩ hinfinite
  | power _ _ hfinite hpositive => exact ⟨hfinite, hpositive, rfl⟩

end DecidedByFactors

private theorem decidedByFactors {a b : Nat} (ha : 1 ≤ a)
    (ha' : a < 10 ^ digitLimit) (hb' : b < 10 ^ digitLimit) :
    DecidedByFactors a b (criticalExponent (.whole a) (.whole b))
      (solveRecurrence (.whole a) (.whole b) "O(1)") := by
  rw [solveRecurrence_constant]
  rcases eq_or_ne b 0 with rfl | hb
  · rw [Nat.cast_zero, isPositive_criticalExponent_zero (by omega)]
    exact .logarithm (.inr rfl)
  · rcases eq_or_ne a 1 with rfl | hone
    · rw [Nat.cast_one, isPositive_criticalExponent_one hb]
      exact .logarithm (.inl rfl)
    · rcases eq_or_ne b 1 with rfl | hb1
      · have hbound : powerBound (.infinite false) = .ofLabel "n^inf" := by decide
        rw [Nat.cast_one, criticalExponent_one (by omega), if_pos (by rfl),
          hbound]
        exact .infinite (by omega) rfl
      · obtain ⟨hfinite, hpositive⟩ :=
          criticalExponent_of_two_le (by omega) (by omega) ha' hb'
        rw [if_pos hpositive]
        exact .power (by omega) (by omega) hfinite hpositive

/-! ## Factors that are inferred -/

namespace Scan

private theorem exists_factors_of_ofFunction {style : CallStyle}
    {code name : List Char} {o : Observation}
    (returned : ofFunction style code name = .ok o) :
    ∃ a b : Int, style.infer code name = .ok ⟨.whole a, .whole b, .constant⟩ ∧
      1 ≤ a ∧ 0 ≤ b ∧
      ¬ (Number.whole a).IsOverlong ∧ ¬ (Number.whole b).IsOverlong ∧
      o.finding.result = solveRecurrence (.whole a) (.whole b) "O(1)" := by
  obtain ⟨r, hinfer, returned⟩ := bind_eq_ok_iff.1 returned
  obtain ⟨branching, hbranching, returned⟩ := bind_eq_ok_iff.1 returned
  obtain ⟨reduction, hreduction, returned⟩ := bind_eq_ok_iff.1 returned
  cases returned
  have hfactors : ∃ a b : Int, r = ⟨.whole a, .whole b, .constant⟩ ∧
      1 ≤ a ∧ 0 ≤ b := by
    unfold CallStyle.infer at hinfer
    split at hinfer
    · cases hinfer
      exact ⟨1, 1, rfl, by decide, by decide⟩
    · obtain ⟨divisor, -, hinfer⟩ := bind_eq_ok_iff.1 hinfer
      cases hinfer
      exact ⟨_, divisor, rfl, by omega, by omega⟩
  obtain ⟨a, b, rfl, ha, hb⟩ := hfactors
  exact ⟨a, b, hinfer, ha, hb, (Number.text_failsExactly _).not_of_ok hbranching,
    (Number.text_failsExactly _).not_of_ok hreduction, rfl⟩

end Scan

open Scan

/--
Exponents and solutions exist for all numbers: no guard lets a logarithm or a
division through that would fail.  For whole factors within the digit limit, as
they are inferred, constant work leaves a logarithm exactly with a single branch
or a reduction by zero, and an infinite power exactly with several branches that
are not reduced.  All other factors have a finite exponent above zero.
-/
theorem solveRecurrence_decided_by_factors :
    (∀ (branching reduction : Number) (work : String),
      checkedExponent branching reduction =
        .ok (criticalExponent branching reduction) ∧
      checkedSolution branching reduction work =
        .ok (solveRecurrence branching reduction work)) ∧
    (∀ a b : Int, 1 ≤ a → 0 ≤ b → ¬ (Number.whole a).IsOverlong →
      ¬ (Number.whole b).IsOverlong →
      (solveRecurrence (.whole a) (.whole b) "O(1)" = .ofLabel "log n" ↔
        a = 1 ∨ b = 0) ∧
      (solveRecurrence (.whole a) (.whole b) "O(1)" = .ofLabel "n^inf" ↔
        2 ≤ a ∧ b = 1) ∧
      (¬ (a = 1 ∨ b = 0) → ¬ (2 ≤ a ∧ b = 1) →
        (criticalExponent (.whole a) (.whole b)).isFinite = true ∧
        (criticalExponent (.whole a) (.whole b)).isPositive = true ∧
        solveRecurrence (.whole a) (.whole b) "O(1)" =
          powerBound (criticalExponent (.whole a) (.whole b)))) ∧
    (∀ (style : CallStyle) (code name : List Char) (o : Observation),
      ofFunction style code name = .ok o →
      ∃ a b : Int, style.infer code name = .ok ⟨.whole a, .whole b, .constant⟩ ∧
        1 ≤ a ∧ 0 ≤ b ∧
        ¬ (Number.whole a).IsOverlong ∧ ¬ (Number.whole b).IsOverlong ∧
        o.finding.result = solveRecurrence (.whole a) (.whole b) "O(1)") := by
  refine ⟨fun branching reduction work =>
    ⟨checkedExponent_eq _ _, checkedSolution_eq _ _ _⟩, fun a b ha hb ha' hb' =>
      ?_, fun _ _ _ _ => exists_factors_of_ofFunction⟩
  obtain ⟨a, rfl⟩ := Int.eq_ofNat_of_zero_le (by omega : 0 ≤ a)
  obtain ⟨b, rfl⟩ := Int.eq_ofNat_of_zero_le hb
  rw [Number.IsOverlong, Int.natAbs_natCast, Nat.not_le] at ha' hb'
  have decided := decidedByFactors (by omega) ha' hb'
  exact ⟨decided.logarithm_iff, decided.infinite_iff, decided.power_of_not⟩

def longestWhole : Int := (10 ^ digitLimit - 1 : Nat)

theorem solveRecurrence_decided_by_factors_longest :
    checkedSolution (.real (.infinite true)) (.real (.signedZero true)) "O(1)" =
        .ok (.ofLabel "log n") ∧
      1 ≤ longestWhole ∧ ¬ (Number.whole longestWhole).IsOverlong ∧
      ¬ (Number.whole 2).IsOverlong ∧
      (criticalExponent (.whole longestWhole) (.whole 2)).isFinite = true ∧
      solveRecurrence (.whole longestWhole) (.whole 2) "O(1)" =
        .ofLabel "n^14284.2908" ∧
      ∃ o, ofFunction definitionStyle "f(n/0)".toList ['f'] = .ok o ∧
        o.finding.result = .ofLabel "log n" ∧
        ∃ a b : Int, definitionStyle.infer "f(n/0)".toList ['f'] =
          .ok ⟨.whole a, .whole b, .constant⟩ ∧ 1 ≤ a ∧ 0 ≤ b := by
  obtain ⟨checked, decided, inferred⟩ := solveRecurrence_decided_by_factors
  have hlongest : ¬ (Number.whole longestWhole).IsOverlong := by
    rw [Number.IsOverlong, longestWhole, Int.natAbs_natCast, Nat.not_le]
    exact Nat.sub_lt (Nat.pow_pos (by decide)) Nat.one_pos
  have htwo : ¬ (Number.whole 2).IsOverlong := by
    rw [Number.IsOverlong, Nat.not_le]
    calc Int.natAbs 2 < 10 ^ 1 := by decide
      _ ≤ 10 ^ digitLimit := Nat.pow_le_pow_right (by decide) (by decide)
  obtain ⟨-, -, hpower⟩ :=
    decided longestWhole 2 (by decide +kernel) (by decide) hlongest htwo
  obtain ⟨hfinite, -, -⟩ := hpower (by decide +kernel) fun h =>
    absurd h.2 (by decide)
  have hfunction : ofFunction definitionStyle "f(n/0)".toList ['f'] = .ok
      ⟨⟨"Recursive Function", "Function f with 1 recursive calls, n/0 reduction",
        .ofLabel "log n"⟩, some (.ofLabel "log_0 n")⟩ := by
    decide +kernel
  obtain ⟨a, b, hinfer, ha, hb, -⟩ := inferred _ _ _ _ hfunction
  refine ⟨?_, by decide +kernel, hlongest, htwo, hfinite, by
    decide +kernel, _, hfunction, rfl, a, b, hinfer, ha, hb⟩
  rw [(checked _ _ _).2]
  decide +kernel

end SnippetGrowth
