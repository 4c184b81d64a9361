import SnippetGrowth.Proofs.Exponents

/-!
# The texts of numbers

A number is written with digits and a handful of other characters, none of
which divides words.  In fixed form a number without a minus sign has a whole
part, a point and the demanded count of digits, unless it is infinite or no
number at all.
-/

namespace SnippetGrowth

/-! ## Characters of written numbers -/

def isNumeralPart (c : Char) : Bool := isNumberPart c || ['e', '+'].contains c

theorem isNumeralPart_of_isNumberPart {c : Char} (h : isNumberPart c = true) :
    isNumeralPart c = true := by
  simp [isNumeralPart, h]

theorem isNumeralPart_of_isDigit {c : Char} (h : c.isDigit = true) :
    isNumeralPart c = true :=
  isNumeralPart_of_isNumberPart (isNumberPart_of_isDigit h)

private theorem isNumeralPart_of_mem_exponentText {exponent : Int} {c : Char}
    (h : c ∈ Double.exponentText exponent) : isNumeralPart c = true := by
  unfold Double.exponentText at h
  rcases List.mem_cons.1 h with rfl | h
  · decide
  · rcases List.mem_cons.1 h with rfl | h
    · split <;> decide
    · exact isNumeralPart_of_isDigit (isDigit_of_mem_padLeft h)

private theorem isNumeralPart_of_mem_decimalText {d : Double.Decimal} {c : Char}
    (h : c ∈ d.text) :
    isNumeralPart c = true := by
  have hdigit : ∀ digit ∈ Double.decimalDigits d.digits,
      isNumeralPart digit = true :=
    fun _ hmem => isNumeralPart_of_isDigit (isDigit_of_mem_decimalDigits hmem)
  unfold Double.Decimal.text at h
  dsimp only at h
  split at h
  · split at h <;>
      exact isNumeralPart_of_isNumberPart (isNumberPart_of_mem_withPoint h)
  · cases hdigits : Double.decimalDigits d.digits with
    | nil =>
        rw [hdigits] at h
        exact isNumeralPart_of_mem_exponentText h
    | cons first rest =>
        rw [hdigits] at h hdigit
        cases rest with
        | nil =>
            rcases List.mem_cons.1 h with rfl | h
            · exact hdigit _ List.mem_cons_self
            · exact isNumeralPart_of_mem_exponentText h
        | cons second rest =>
            rcases List.mem_cons.1 h with rfl | h
            · exact hdigit _ List.mem_cons_self
            · rcases List.mem_cons.1 h with rfl | h
              · decide
              · rcases List.mem_append.1 h with h | h
                · exact hdigit _ (List.mem_cons_of_mem _ h)
                · exact isNumeralPart_of_mem_exponentText h

private theorem isNumeralPart_of_mem_doubleText {x : Double} {c : Char}
    (h : c ∈ x.text.toList) :
    isNumeralPart c = true := by
  unfold Double.text at h
  split at h
  · have hall : Double.nanText.toList.all isNumeralPart = true := by decide
    exact List.all_eq_true.1 hall c h
  · next negative =>
      have hall :
          (Double.infiniteText negative).toList.all isNumeralPart = true := by
        cases negative <;> decide
      exact List.all_eq_true.1 hall c h
  · rcases mem_signText h with rfl | h
    · decide
    · have hall : ['0', '.', '0'].all isNumeralPart = true := by decide
      exact List.all_eq_true.1 hall c h
  · rcases mem_signText h with rfl | h
    · decide
    · exact isNumeralPart_of_mem_decimalText h

private theorem isNumeralPart_of_mem_intText {n : Int} {c : Char}
    (h : c ∈ (toString n).toList) :
    isNumeralPart c = true := by
  have hdigit : ∀ m : Nat, ∀ d ∈ m.repr.toList, isNumeralPart d = true := by
    intro m d hd
    rw [Nat.toList_repr] at hd
    exact isNumeralPart_of_isDigit (isDigit_of_mem_decimalDigits hd)
  rw [Int.toString_eq_repr, Int.repr_eq_if] at h
  split at h
  · exact hdigit _ c h
  · rw [String.toList_append, List.mem_append] at h
    rcases h with h | h
    · have hminus : c = '-' := by simpa using h
      rw [hminus]
      decide
    · exact hdigit _ c h

private theorem isNumeralPart_of_mem_numberText {number : Number} {text : String}
    (returned : number.text = .ok text) {c : Char} (h : c ∈ text.toList) :
    isNumeralPart c = true := by
  cases number with
  | real x =>
      cases returned
      exact isNumeralPart_of_mem_doubleText h
  | whole n =>
      rw [Number.text, wholeText] at returned
      split at returned
      · cases returned
        exact isNumeralPart_of_mem_intText h
      · contradiction

theorem not_mem_numberText {number : Number} {text : String}
    (returned : number.text = .ok text) {c : Char}
    (hc : isNumeralPart c = false) : c ∉ text.toList := by
  intro h
  rw [isNumeralPart_of_mem_numberText returned h] at hc
  contradiction

/-! ## The fixed form -/

def IsFixedDecimal (places : Nat) (text : List Char) : Prop :=
  ∃ whole fraction, text = whole ++ '.' :: fraction ∧ whole ≠ [] ∧
    (∀ c ∈ whole, c.isDigit = true) ∧ (∀ c ∈ fraction, c.isDigit = true) ∧
    fraction.length = places

private theorem le_length_padLeft (width : Nat) (digits : List Char) :
    width ≤ (Double.padLeft width digits).length := by
  rw [Double.padLeft, List.length_append, List.length_replicate]
  omega

theorem isFixedDecimal_withPoint (places value : Nat) :
    IsFixedDecimal places (Double.withPoint places value) := by
  have hlength := le_length_padLeft (places + 1) (Double.decimalDigits value)
  refine ⟨_, _, rfl, ?_, ?_, ?_, ?_⟩
  · apply List.ne_nil_of_length_pos
    rw [List.length_take]
    omega
  · intro c hc
    exact isDigit_of_mem_padLeft (List.mem_of_mem_take hc)
  · intro c hc
    exact isDigit_of_mem_padLeft (List.mem_of_mem_drop hc)
  · rw [List.length_drop]
    omega

theorem fixedText_of_isNegative_eq_false {x : Double} (h : x.isNegative = false)
    (places : Nat) :
    x.fixedText places = "inf" ∨ x.fixedText places = "nan" ∨
      IsFixedDecimal places (x.fixedText places).toList := by
  cases x with
  | nan => exact .inr (.inl rfl)
  | infinite negative =>
      have hsign : negative = false := h
      subst hsign
      exact .inl rfl
  | finite negative significand exponent =>
      have hsign : negative = false := h
      subst hsign
      refine .inr (.inr ?_)
      simp only [Double.fixedText, Double.signText, Bool.false_eq_true, if_false,
        String.toList_ofList]
      exact isFixedDecimal_withPoint _ _

/-! ## Numbers that need no minus sign -/

theorem aligned_true_nonpos (significand : Nat) (exponent base : Int) :
    Double.aligned true significand exponent base ≤ 0 := by
  have hmagnitude :
      (0 : Int) ≤ (significand * 2 ^ (exponent - base).toNat : Nat) :=
    Int.natCast_nonneg _
  simp only [Double.aligned, if_true]
  push_cast at hmagnitude ⊢
  omega

private theorem aligned_false_nonneg (significand : Nat) (exponent base : Int) :
    0 ≤ Double.aligned false significand exponent base := by
  have hmagnitude :
      (0 : Int) ≤ (significand * 2 ^ (exponent - base).toNat : Nat) :=
    Int.natCast_nonneg _
  simp only [Double.aligned, Bool.false_eq_true, if_false]
  push_cast at hmagnitude ⊢
  omega

theorem isNegative_eq_false_of_isPositive {x : Double} (h : x.isPositive = true) :
    x.isNegative = false := by
  cases x with
  | nan => rfl
  | infinite negative =>
      simpa [Double.isPositive, Double.zero, Double.signedZero, Double.lt,
        Double.isNegative]
        using h
  | finite negative significand exponent =>
      cases negative with
      | false => rfl
      | true =>
          have hzero := aligned_false_nonneg 0 Double.leastExponent
            (min Double.leastExponent exponent)
          have hminus := aligned_true_nonpos significand exponent
            (min Double.leastExponent exponent)
          simp only [Double.isPositive, Double.zero, Double.signedZero, Double.lt,
            decide_eq_true_eq] at h
          omega

theorem isNegative_eq_false_of_not_lt_one {x : Double} (h : x.lt .one = false) :
    x.isNegative = false := by
  cases x with
  | nan => rfl
  | infinite negative => simpa [Double.one, Double.lt, Double.isNegative] using h
  | finite negative significand exponent =>
      cases negative with
      | false => rfl
      | true =>
          have hone :
              0 < Double.aligned false (2 ^ (52 : Nat)) (-52)
                (min exponent (-52)) := by
            simp only [Double.aligned, Bool.false_eq_true, if_false]
            exact Int.mul_pos (by decide) (Int.pow_pos (by decide))
          have hminus :=
            aligned_true_nonpos significand exponent (min exponent (-52))
          simp only [Double.one, Double.lt, decide_eq_false_iff_not] at h
          omega

end SnippetGrowth
