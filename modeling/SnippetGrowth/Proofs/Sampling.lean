import SnippetGrowth.Proofs.Outcome
import SnippetGrowth.Proofs.Rounding
import SnippetGrowth.Service

/-!
# When a curve cannot be sampled

A curve has no negative sizes.  Beyond that a growth function lacks a value in
two cases only: zero has no negative power, and a size of more digits than can
be written has no factorial.  Every other value is there, if only to be left
out as too large for a double, so these three cases decide which curves are
sampled and how a request for one is answered.
-/

namespace SnippetGrowth

namespace GrowthFunction

/-- How a function lacks a value at a size, and the failure that tells so. -/
inductive Lacks : GrowthFunction → Nat → Failure → Prop
  | negativePower {significand : Nat} {exponent : Int} (h : significand ≠ 0) :
      Lacks (.power (.finite true significand exponent)) 0 .zeroPower
  | overlongFactorial {n : Nat} (h : 10 ^ digitLimit ≤ n) :
      Lacks .factorial n .tooLongToWrite

/-! ## Powers of sizes -/

theorem sizeValue?_eq_some_iff {n : Nat} {x : Double} :
    sizeValue? n = some x ↔
      (Double.ofNat n).isFinite = true ∧ Double.ofNat n = x := by
  simp [sizeValue?]

private theorem rounded_zero : ((Double.ofNat 0).toInt?.getD 0).toNat = 0 := by
  rw [Double.ofNat_zero, Double.toInt?_zero]
  rfl

private theorem rounded_ne_zero {n : Nat} (h : n ≠ 0)
    (hfinite : (Double.ofNat n).isFinite = true) :
    ((Double.ofNat n).toInt?.getD 0).toNat ≠ 0 := by
  obtain ⟨whole, hwhole, hvalue⟩ :=
    (Double.isPositiveWhole_ofNat h hfinite).toInt?_eq
  simpa [hvalue] using hwhole

private theorem sizePower_of_ne_zero {n : Nat} (h : n ≠ 0)
    (hfinite : (Double.ofNat n).isFinite = true) (exponent : Double) :
    ∃ x, sizePower n exponent = .ok x := by
  have hrounded := rounded_ne_zero h hfinite
  cases hexponent : exponent.isZero <;> simp [sizePower, hexponent, hrounded]

private theorem sizePower_zero_eq_error_iff {exponent : Double}
    {failure : Failure} :
    sizePower 0 exponent = .error failure ↔
      Lacks (.power exponent) 0 failure := by
  constructor
  · intro failed
    simp only [sizePower, rounded_zero, if_true] at failed
    split at failed
    · contradiction
    · next hnonzero =>
        split at failed
        · contradiction
        · next significand e =>
            cases failed
            refine .negativePower ?_
            rintro rfl
            exact hnonzero rfl
        · contradiction
  · intro hlacks
    cases hlacks with
    | @negativePower significand e h =>
        cases significand with
        | zero => contradiction
        | succ significand => simp [sizePower, rounded_zero, Double.isZero]

private theorem sizePower_eq_error_iff {n : Nat}
    (hfinite : (Double.ofNat n).isFinite = true) {exponent : Double}
    {failure : Failure} :
    sizePower n exponent = .error failure ↔
      Lacks (.power exponent) n failure := by
  by_cases h : n = 0
  · subst h
    exact sizePower_zero_eq_error_iff
  · obtain ⟨x, hx⟩ := sizePower_of_ne_zero h hfinite exponent
    refine iff_of_false (by simp [hx]) ?_
    intro hlacks
    cases hlacks
    contradiction

theorem powerValue_eq_error_iff {n : Nat} {exponent : Double}
    {failure : Failure} :
    rawValue.powerValue n exponent = .error failure ↔
      Lacks (.power exponent) n failure := by
  unfold rawValue.powerValue
  cases hvalue : sizeValue? n with
  | some x =>
      rw [map_eq_error_iff]
      exact sizePower_eq_error_iff (sizeValue?_eq_some_iff.1 hvalue).1
  | none =>
      refine iff_of_false (by simp) ?_
      intro hlacks
      cases hlacks
      simp [sizeValue?, Double.ofNat, Double.ofRatio, Double.signedZero,
        Double.isFinite] at hvalue

/-! ## Values -/

private theorem wholeText_eq_error_iff {n : Nat} {failure : Failure} :
    wholeText n = .error failure ↔
      10 ^ digitLimit ≤ n ∧ failure = .tooLongToWrite := by
  unfold wholeText
  split
  · next hshort =>
      refine iff_of_false (by simp) ?_
      rw [Int.natAbs_natCast] at hshort
      omega
  · next hlong =>
      rw [Int.natAbs_natCast, Nat.not_lt] at hlong
      simp [hlong, eq_comm]

theorem Lacks.isNegative {exponent : Double} {n : Nat} {failure : Failure}
    (h : Lacks (.power exponent) n failure) : exponent.isNegative = true := by
  cases h
  rfl

theorem greatestFactorial_lt : greatestFactorial < 10 ^ digitLimit :=
  Nat.lt_of_lt_of_le (by decide : greatestFactorial < 10 ^ 3)
    (Nat.pow_le_pow_right (by decide) (by decide))

private theorem factorial_eq_error_iff {n : Nat} {failure : Failure} :
    rawValue n .factorial = .error failure ↔ Lacks .factorial n failure := by
  have hgreatest := greatestFactorial_lt
  have hlacks : Lacks .factorial n failure ↔
      10 ^ digitLimit ≤ n ∧ failure = .tooLongToWrite := by
    constructor
    · rintro ⟨⟩
      exact ⟨by assumption, rfl⟩
    · rintro ⟨h, rfl⟩
      exact .overlongFactorial h
  rw [rawValue, hlacks]
  split
  · rw [map_eq_error_iff]
    exact wholeText_eq_error_iff
  · next hsmall =>
      refine iff_of_false (by simp) ?_
      rintro ⟨hlong, -⟩
      omega

theorem value_eq_error_iff {f : GrowthFunction} {n : Nat} {failure : Failure} :
    f.value n = .error failure ↔ Lacks f n failure := by
  have hpower : ∀ exponent : Double, exponent.isNegative = false →
      rawValue.powerValue n exponent ≠ .error failure := by
    intro exponent hsign failed
    rw [(powerValue_eq_error_iff.1 failed).isNegative] at hsign
    contradiction
  rw [value, map_eq_error_iff]
  cases f with
  | factorial => exact factorial_eq_error_iff
  | cube => exact iff_of_false (hpower _ (by decide)) (by rintro ⟨⟩)
  | square => exact iff_of_false (hpower _ (by decide)) (by rintro ⟨⟩)
  | linearithmic =>
      refine iff_of_false ?_ (by rintro ⟨⟩)
      rw [rawValue]
      split <;> simp
  | logarithm => exact iff_of_false (by simp [rawValue]) (by rintro ⟨⟩)
  | power exponent => exact powerValue_eq_error_iff
  | identity => exact iff_of_false (by simp [rawValue]) (by rintro ⟨⟩)
  | one => exact iff_of_false (by simp [rawValue]) (by rintro ⟨⟩)

/-- Whether a function is a power that zero does not have. -/
def IsNegativePower (f : GrowthFunction) : Prop :=
  ∃ significand exponent, significand ≠ 0 ∧
    f = .power (.finite true significand exponent)

theorem isNegativePower_reciprocal : (ofLabel "n^-1").IsNegativePower :=
  ⟨2 ^ 52, -52, by decide, by decide +kernel⟩

theorem lacks_iff {f : GrowthFunction} {n : Nat} {failure : Failure} :
    Lacks f n failure ↔
      failure = .zeroPower ∧ f.IsNegativePower ∧ n = 0 ∨
        failure = .tooLongToWrite ∧ f = .factorial ∧ 10 ^ digitLimit ≤ n := by
  constructor
  · intro h
    cases h with
    | negativePower h => exact .inl ⟨rfl, ⟨_, _, h, rfl⟩, rfl⟩
    | overlongFactorial h => exact .inr ⟨rfl, rfl, h⟩
  · rintro (⟨rfl, ⟨significand, exponent, h, rfl⟩, rfl⟩ | ⟨rfl, rfl, h⟩)
    · exact .negativePower h
    · exact .overlongFactorial h

theorem IsNegativePower.ne_factorial {f : GrowthFunction}
    (h : f.IsNegativePower) :
    f ≠ .factorial := by
  obtain ⟨significand, exponent, -, rfl⟩ := h
  simp

private theorem Lacks.failure_eq {f : GrowthFunction} {n m : Nat}
    {failure other : Failure} (h : Lacks f n failure) (hother : Lacks f m other) :
    failure = other := by
  cases h <;> cases hother <;> rfl

end GrowthFunction

/-! ## Curves -/

namespace Curve

private theorem mapM_value_eq_error_iff {f : GrowthFunction} {sizes : List Int}
    {failure : Failure} :
    (sizes.mapM fun n => f.value n.toNat) = .error failure ↔
      ∃ n ∈ sizes, f.Lacks n.toNat failure := by
  constructor
  · intro failed
    obtain ⟨n, hn, hfails⟩ := exists_of_mapM_eq_error failed
    exact ⟨n, hn, GrowthFunction.value_eq_error_iff.1 hfails⟩
  · rintro ⟨n, hn, hlacks⟩
    have hfails : ∃ n ∈ sizes, ∃ failure, f.value n.toNat = .error failure :=
      ⟨n, hn, failure, GrowthFunction.value_eq_error_iff.2 hlacks⟩
    obtain ⟨other, failed⟩ := mapM_fails_iff.2 hfails
    obtain ⟨m, -, hother⟩ := exists_of_mapM_eq_error failed
    rw [hlacks.failure_eq (GrowthFunction.value_eq_error_iff.1 hother)]
    exact failed

theorem sample_of_negative {label : String} {sizes : List Int}
    (h : ∃ n ∈ sizes, n < 0) :
    sample label sizes = .error .negativeSize := by
  have hany : sizes.any (· < 0) = true := by simpa using h
  rw [sample, if_pos hany]

theorem sample_eq_error_iff_of_nonneg {label : String} {sizes : List Int}
    {failure : Failure} (h : ¬ ∃ n ∈ sizes, n < 0) :
    sample label sizes = .error failure ↔
      ∃ n ∈ sizes, (GrowthFunction.ofLabel label).Lacks n.toNat failure := by
  have hnone : ¬ sizes.any (· < 0) = true := by simpa using h
  rw [sample, if_neg hnone, ← mapM_value_eq_error_iff, bind_eq_error_iff]
  simp

def LacksPower (label : String) (sizes : List Int) : Prop :=
  (GrowthFunction.ofLabel label).IsNegativePower ∧ 0 ∈ sizes

def LacksFactorial (label : String) (sizes : List Int) : Prop :=
  GrowthFunction.ofLabel label = .factorial ∧ ∃ n ∈ sizes, 10 ^ digitLimit ≤ n

inductive Outcome (label : String) (sizes : List Int) :
    Except Failure Curve → Prop
  | negative (h : ∃ n ∈ sizes, n < 0) : Outcome label sizes (.error .negativeSize)
  | zeroPower (h : ¬ ∃ n ∈ sizes, n < 0) (hpower : LacksPower label sizes) :
      Outcome label sizes (.error .zeroPower)
  | overlong (h : ¬ ∃ n ∈ sizes, n < 0)
      (hfactorial : LacksFactorial label sizes) :
      Outcome label sizes (.error .tooLongToWrite)
  | sampled (h : ¬ ∃ n ∈ sizes, n < 0) (hpower : ¬ LacksPower label sizes)
      (hfactorial : ¬ LacksFactorial label sizes) (curve : Curve) :
        Outcome label sizes (.ok curve)

theorem LacksPower.not_lacksFactorial {label : String} {sizes : List Int}
    (h : LacksPower label sizes) : ¬ LacksFactorial label sizes :=
  fun hfactorial => h.1.ne_factorial hfactorial.1

theorem LacksFactorial.not_lacksPower {label : String} {sizes : List Int}
    (h : LacksFactorial label sizes) : ¬ LacksPower label sizes :=
  fun hpower => hpower.not_lacksFactorial h

theorem outcome_sample (label : String) (sizes : List Int) :
    Outcome label sizes (sample label sizes) := by
  by_cases h : ∃ n ∈ sizes, n < 0
  · rw [sample_of_negative h]
    exact .negative h
  · have hnat : ∀ n ∈ sizes, (n.toNat : Int) = n := by
      intro n hn
      have hnonneg : ¬ n < 0 := fun hlt => h ⟨n, hn, hlt⟩
      omega
    cases houtcome : sample label sizes with
    | error failure =>
        obtain ⟨n, hn, hlacks⟩ := (sample_eq_error_iff_of_nonneg h).1 houtcome
        have hvalue := hnat n hn
        rcases GrowthFunction.lacks_iff.1 hlacks with
          ⟨rfl, hpower, hzero⟩ | ⟨rfl, hfactorial, hlong⟩
        · refine .zeroPower h ⟨hpower, ?_⟩
          rwa [← hvalue, hzero] at hn
        · refine .overlong h ⟨hfactorial, n, hn, ?_⟩
          rw [← hvalue]
          exact_mod_cast hlong
    | ok curve =>
        have hnone : ∀ failure n, n ∈ sizes →
            ¬ (GrowthFunction.ofLabel label).Lacks n.toNat failure := by
          intro failure n hn hlacks
          have hfails := (sample_eq_error_iff_of_nonneg h).2 ⟨n, hn, hlacks⟩
          rw [houtcome] at hfails
          contradiction
        refine .sampled h ?_ ?_ curve
        · rintro ⟨hpower, hzero⟩
          exact hnone _ 0 hzero
            (GrowthFunction.lacks_iff.2 (.inl ⟨rfl, hpower, rfl⟩))
        · rintro ⟨hfactorial, n, hn, hlong⟩
          refine hnone _ n hn
            (GrowthFunction.lacks_iff.2 (.inr ⟨rfl, hfactorial, ?_⟩))
          rw [← hnat n hn] at hlong
          exact_mod_cast hlong

variable {label : String} {sizes : List Int} {outcome : Except Failure Curve}

theorem Outcome.eq_negativeSize_iff (h : Outcome label sizes outcome) :
    outcome = .error .negativeSize ↔ ∃ n ∈ sizes, n < 0 := by
  cases h with
  | negative h => simp [h]
  | zeroPower h | overlong h | sampled h => simp [h]

theorem Outcome.eq_zeroPower_iff (h : Outcome label sizes outcome) :
    outcome = .error .zeroPower ↔
      (¬ ∃ n ∈ sizes, n < 0) ∧ LacksPower label sizes := by
  cases h with
  | negative h => simp [h]
  | zeroPower h hpower => simp [h, hpower]
  | overlong h hfactorial => simp [h, hfactorial.not_lacksPower]
  | sampled h hpower => simp [h, hpower]

theorem Outcome.eq_tooLongToWrite_iff (h : Outcome label sizes outcome) :
    outcome = .error .tooLongToWrite ↔
      (¬ ∃ n ∈ sizes, n < 0) ∧ LacksFactorial label sizes := by
  cases h with
  | negative h => simp [h]
  | zeroPower h hpower => simp [h, hpower.not_lacksFactorial]
  | overlong h hfactorial => simp [h, hfactorial]
  | sampled h _ hfactorial => simp [h, hfactorial]

private theorem Outcome.eq_ok_iff (h : Outcome label sizes outcome) :
    (∃ curve, outcome = .ok curve) ↔
      (¬ ∃ n ∈ sizes, n < 0) ∧ ¬ LacksPower label sizes ∧
        ¬ LacksFactorial label sizes := by
  cases h with
  | negative h => simp [h]
  | zeroPower h hpower => simp [h, hpower]
  | overlong h hfactorial => simp [h, hfactorial]
  | sampled h hpower hfactorial => simp [h, hpower, hfactorial]

end Curve

/-! ## Requests -/

namespace Service

variable {Message : Type} {parse : Parser}
  {validate : Message → Except Response Request}

theorem respond_growthCurve {message : Message} {label : String}
    {sizes : Option (List Int)}
    (valid : validate message = .ok (.growthCurve label sizes)) :
    respond parse validate message =
      answerCurve label (sizes.getD Curve.defaultSizes) := by
  rw [respond, valid]
  rfl

theorem status_answerCurve (label : String) (sizes : List Int) :
    ((answerCurve label sizes).status = 400 ↔
      (∃ n ∈ sizes, n < 0) ∨ Curve.LacksFactorial label sizes) ∧
    ((answerCurve label sizes).status = 500 ↔
      (¬ ∃ n ∈ sizes, n < 0) ∧ Curve.LacksPower label sizes) ∧
    ((answerCurve label sizes).status = 200 ↔
      (¬ ∃ n ∈ sizes, n < 0) ∧ ¬ Curve.LacksPower label sizes ∧
        ¬ Curve.LacksFactorial label sizes) := by
  have houtcome := Curve.outcome_sample label sizes
  unfold answerCurve
  generalize Curve.sample label sizes = outcome at houtcome ⊢
  cases houtcome with
  | negative h => simp [h]
  | zeroPower h hpower => simp [h, hpower, hpower.not_lacksFactorial, failed]
  | overlong h hfactorial => simp [h, hfactorial, hfactorial.not_lacksPower]
  | sampled h hpower hfactorial => simp [h, hpower, hfactorial]

end Service

/-! ## The cases in which a request is answered -/

/--
The sizes and the function of the label decide whether a curve is sampled, which
failure there is otherwise, and how a valid request for the curve is answered.
-/
theorem sampling_fails_exactly (label : String) (sizes : List Int) :
    (Curve.sample label sizes = .error .negativeSize ↔ ∃ n ∈ sizes, n < 0) ∧
      (Curve.sample label sizes = .error .zeroPower ↔
        (¬ ∃ n ∈ sizes, n < 0) ∧ Curve.LacksPower label sizes) ∧
      (Curve.sample label sizes = .error .tooLongToWrite ↔
        (¬ ∃ n ∈ sizes, n < 0) ∧ Curve.LacksFactorial label sizes) ∧
      ((∃ curve, Curve.sample label sizes = .ok curve) ↔
        (¬ ∃ n ∈ sizes, n < 0) ∧ ¬ Curve.LacksPower label sizes ∧
          ¬ Curve.LacksFactorial label sizes) ∧
      ∀ (Message : Type) (parse : Parser)
        (validate : Message → Except Service.Response Service.Request)
        (message : Message) (requested : Option (List Int)),
        validate message = .ok (.growthCurve label requested) →
        requested.getD Curve.defaultSizes = sizes →
          ((Service.respond parse validate message).status = 400 ↔
            (∃ n ∈ sizes, n < 0) ∨ Curve.LacksFactorial label sizes) ∧
          ((Service.respond parse validate message).status = 500 ↔
            (¬ ∃ n ∈ sizes, n < 0) ∧ Curve.LacksPower label sizes) ∧
          ((Service.respond parse validate message).status = 200 ↔
            (¬ ∃ n ∈ sizes, n < 0) ∧ ¬ Curve.LacksPower label sizes ∧
              ¬ Curve.LacksFactorial label sizes) := by
  have houtcome := Curve.outcome_sample label sizes
  refine ⟨houtcome.eq_negativeSize_iff, houtcome.eq_zeroPower_iff,
    houtcome.eq_tooLongToWrite_iff, houtcome.eq_ok_iff, ?_⟩
  rintro Message parse validate message requested valid rfl
  rw [Service.respond_growthCurve valid]
  exact Service.status_answerCurve label _

/-- The validation that knows the body of one request, and refuses every other one. -/
def Service.Request.knowing (body : String) (request : Request)
    (message : String) :
    Except Response Request :=
  if message = body then .ok request else .error ⟨422, .empty⟩

def reciprocalBody : String := "\x7b\"label\": \"n^-1\", \"sizes\": [0]\x7d"

def reciprocalRequest : Service.Request := .growthCurve "n^-1" (some [0])

theorem sampling_fails_exactly_reciprocal :
    reciprocalRequest.knowing reciprocalBody reciprocalBody =
      .ok reciprocalRequest ∧
      (Service.respond (Parser.knowing [])
        (reciprocalRequest.knowing reciprocalBody)
        reciprocalBody).status = 500 := by
  have valid : reciprocalRequest.knowing reciprocalBody reciprocalBody =
      .ok reciprocalRequest := if_pos rfl
  obtain ⟨-, -, -, -, hstatus⟩ := sampling_fails_exactly "n^-1" [0]
  refine ⟨valid, (hstatus _ _ _ _ _ valid rfl).2.1.2 ⟨by decide, ?_⟩⟩
  exact ⟨GrowthFunction.isNegativePower_reciprocal, by decide⟩

/--
At size zero no size is negative, but no curve of a reciprocal is sampled, and
the answer to a valid request for it is neither that of a refusal nor that of a
success.
-/
theorem reciprocal_not_sampled_at_zero :
    ¬ ((∃ failure, Curve.sample "n^-1" [0] = .error failure) ↔
        ∃ n ∈ [(0 : Int)], n < 0) ∧
      reciprocalRequest.knowing reciprocalBody reciprocalBody =
        .ok reciprocalRequest ∧
      (Service.respond (Parser.knowing [])
        (reciprocalRequest.knowing reciprocalBody)
        reciprocalBody).status = 500 := by
  have valid : reciprocalRequest.knowing reciprocalBody reciprocalBody =
      .ok reciprocalRequest := if_pos rfl
  have hnonneg : ¬ ∃ n ∈ [(0 : Int)], n < 0 := by decide
  have hpower : Curve.LacksPower "n^-1" [0] :=
    ⟨GrowthFunction.isNegativePower_reciprocal, by decide⟩
  have hfails :=
    (Curve.outcome_sample "n^-1" [0]).eq_zeroPower_iff.2 ⟨hnonneg, hpower⟩
  refine ⟨fun h => hnonneg (h.1 ⟨_, hfails⟩), valid, ?_⟩
  rw [Service.respond_growthCurve valid]
  exact (Service.status_answerCurve "n^-1" [0]).2.1.2 ⟨hnonneg, hpower⟩

end SnippetGrowth
