import SnippetGrowth.Proofs.DecimalTexts
import SnippetGrowth.Proofs.Exponents
import SnippetGrowth.Proofs.NumberTexts
import SnippetGrowth.Proofs.Selection

/-!
# Curves of powers

A power with a decimal exponent is looked for last, after the square and the
cube, which are found by the first character of the exponent.  So the curve of
a power has the exponent of its label unless that starts with `2` or `3`, and
then only if it is that number.
-/

namespace SnippetGrowth

open Text

/-! ## Functions that are powers -/

namespace GrowthFunction

def exponent? : GrowthFunction → Option Double
  | cube => some (Double.ofNat 3)
  | square => some (Double.ofNat 2)
  | power exponent => some exponent
  | _ => none

theorem value_of_exponent? {f : GrowthFunction} {exponent : Double}
    (h : f.exponent? = some exponent) (n : Nat) :
    f.value n = (power exponent).value n := by
  cases f with
  | cube => cases h; rfl
  | square => cases h; rfl
  | power exponent => cases h; rfl
  | factorial => contradiction
  | linearithmic => contradiction
  | logarithm => contradiction
  | identity => contradiction
  | one => contradiction

def notations (label : String) : List String :=
  [label, "O(" ++ label ++ ")", "Θ(" ++ label ++ ")", "o(" ++ label ++ ")"]

theorem ofLabel_of_mem_notations {label shown : String}
    (h : shown ∈ notations label) :
    ofLabel shown = ofLabel label := by
  simp only [notations, List.mem_cons, List.not_mem_nil, or_false] at h
  rcases h with rfl | rfl | rfl | rfl
  · rfl
  · exact ofLabel_enclosed (by simp) label
  · exact ofLabel_enclosed (by simp) label
  · exact ofLabel_enclosed (by simp) label

end GrowthFunction

/-! ## Exponents of labels -/

namespace DecimalText

open GrowthFunction

variable (d : DecimalText)

theorem toList_text : d.text.toList = d.chars := String.toList_ofList

private theorem unsignedNumeral?_magnitude :
    unsignedNumeral? d.magnitude = some d.magnitude := by
  have hpoint : ∀ c ∈ (places d.fraction).head?, isDigit c = false := by
    unfold places
    split
    · simp
    · simp only [List.head?_cons, Option.mem_some_iff, forall_eq']
      decide +kernel
  have hplaces : decimalPlaces (places d.fraction) = places d.fraction := by
    unfold places
    split
    · rfl
    · next hsome =>
        have hrun := Scan.run?_eq_of_inside hsome d.fraction_digits
          (show ∀ c ∈ ([] : List Char).head?, isDigit c = false by simp)
        rw [List.append_nil] at hrun
        simp [decimalPlaces, hrun]
  rw [unsignedNumeral?, magnitude,
    Scan.run?_eq_of_inside d.whole_ne_nil d.whole_digits hpoint, Option.map_some,
    hplaces]

private theorem exponentNumeral?_chars :
    exponentNumeral? d.chars = some d.chars := by
  unfold chars
  split
  · rw [exponentNumeral?, unsignedNumeral?_magnitude, Option.map_some]
  · rw [exponentNumeral?, unsignedNumeral?_magnitude]
    intro rest heq
    rcases mem_magnitude (heq ▸ List.mem_cons_self : '-' ∈ d.magnitude) with
      hpoint | hdigit
    · contradiction
    · revert hdigit
      decide +kernel

private theorem firstExponent?_power :
    firstExponent? ('n' :: '^' :: d.chars) = some d.chars := by
  have hafter : after? ['n', '^'] ('n' :: '^' :: d.chars) = some d.chars := by
    simp [after?]
  simp [firstExponent?, hafter, exponentNumeral?_chars]

/-- The function that the label of a power selects. -/
def selected : GrowthFunction :=
  if d.chars.head? = some '3' then .cube
  else if d.chars.head? = some '2' then .square
  else .power d.value

theorem ofLabel_power : GrowthFunction.ofLabel ("n^" ++ d.text) = d.selected := by
  have htext : ("n^" ++ d.text).toList = 'n' :: '^' :: d.chars := by
    rw [String.toList_append, toList_text]
    rfl
  have habsent : ∀ c : Char, isDigit c = false → c ∉ ['-', '.'] →
      c ∉ d.chars := by
    intro c hdigit hmark hmem
    rcases mem_chars hmem with rfl | rfl | h
    · exact hmark (by decide)
    · exact hmark (by decide)
    · rw [hdigit] at h
      contradiction
  have hforeign : ∀ marker : List Char, ∀ c ∈ marker, isDigit c = false →
      c ∉ ['-', '.', 'n', '^'] →
          occursIn marker ('n' :: '^' :: d.chars) = false := by
    intro marker c hmarker hdigit hmark
    refine occursIn_eq_false_of_mem hmarker ?_
    simp only [List.mem_cons, List.not_mem_nil, or_false, not_or] at hmark ⊢
    exact ⟨hmark.2.2.1, hmark.2.2.2, habsent c hdigit (by simp [hmark])⟩
  have hfactorial :=
    hforeign "n!".toList '!' (by decide) (by decide +kernel) (by decide)
  have hcube :=
    hforeign "n³".toList '³' (by decide) (by decide +kernel) (by decide)
  have hsquare :=
    hforeign "n²".toList '²' (by decide) (by decide +kernel) (by decide)
  have hlinearithmic :=
    hforeign "n log n".toList 'l' (by decide) (by decide +kernel) (by decide)
  have hlog :=
    hforeign "log n".toList 'l' (by decide) (by decide +kernel) (by decide)
  have hcaret : '^' ∉ d.chars := habsent '^' (by decide +kernel) (by decide)
  have hthree : occursIn "n^3".toList ('n' :: '^' :: d.chars) = true ↔
      d.chars.head? = some '3' := occursIn_power_iff hcaret
  have htwo : occursIn "n^2".toList ('n' :: '^' :: d.chars) = true ↔
      d.chars.head? = some '2' := occursIn_power_iff hcaret
  simp only [GrowthFunction.ofLabel, htext, hfactorial, hcube, hsquare,
    hlinearithmic, hlog, hthree, htwo, Bool.false_or, Bool.false_eq_true,
    if_false, firstExponent?_power,
    Option.bind_some, decimal?_chars]
  rfl

/-- Whether the first digit of a decimal text does not stand for another number. -/
def IsKept : Prop :=
  (d.chars.head? = some '2' → d.value = .ofNat 2) ∧
  (d.chars.head? = some '3' → d.value = .ofNat 3)

theorem exponent?_selected_iff :
    d.selected.exponent? = some d.value ↔ d.IsKept := by
  have hdigits : some '2' ≠ some '3' := by decide
  unfold selected IsKept
  split
  · next hthree => simp [hthree, GrowthFunction.exponent?, eq_comm]
  · next hthree =>
      split
      · next htwo => simp [htwo, GrowthFunction.exponent?, eq_comm]
      · next htwo => simp [hthree, htwo, GrowthFunction.exponent?]

end DecimalText

/-! ## Exponents of recurrences -/

private theorem isDigit_of_char_isDigit {c : Char} (h : c.isDigit = true) :
    isDigit c = true := by
  obtain ⟨value, hvalue, -⟩ := exists_digitValue h
  rw [isDigit, hvalue]
  rfl

private theorem exists_text_eq_fixedText {x : Double} (h : x.isFinite = true) :
    ∃ d : DecimalText, d.text = x.fixedText 4 := by
  cases x with
  | nan => contradiction
  | infinite negative => contradiction
  | finite negative m e =>
      obtain ⟨whole, fraction, hpoint, hnonempty, hwhole, hfraction, hlength⟩ :=
        isFixedDecimal_withPoint 4
          (roundQuotient (m * 2 ^ e.toNat * 10 ^ 4) (2 ^ (-e).toNat))
      have hsome : fraction ≠ [] := List.ne_nil_of_length_pos (by omega)
      refine ⟨⟨negative, whole, fraction, hnonempty, fun c hc =>
        isDigit_of_char_isDigit (hwhole c hc), fun c hc =>
          isDigit_of_char_isDigit (hfraction c hc)⟩, ?_⟩
      have hmagnitude : whole ++ DecimalText.places fraction =
          whole ++ '.' :: fraction := by
        rw [DecimalText.places, if_neg hsome]
      unfold DecimalText.text DecimalText.chars DecimalText.magnitude
      dsimp only
      rw [hmagnitude, ← hpoint]
      rfl

/-- The label of a power selects what its exponent would, also where it is shown
as a square or a cube. -/
theorem ofLabel_powerLabel (d : DecimalText) :
    GrowthFunction.ofLabel (powerLabel d.text) = d.selected := by
  have hsquare : GrowthFunction.ofLabel "n²" = .square := by decide +kernel
  have hcube : GrowthFunction.ofLabel "n³" = .cube := by decide +kernel
  unfold powerLabel
  rw [d.toList_text]
  split
  · next htwo => simp [DecimalText.selected, htwo, hsquare]
  · split
    · next hthree => simp [DecimalText.selected, hthree, hcube]
    · exact d.ofLabel_power

private theorem ofLabel_powerLabel_of_not_finite {x : Double}
    (h : x.isFinite = false) :
    GrowthFunction.ofLabel (powerLabel (x.fixedText 4)) = .identity := by
  cases x with
  | nan => decide +kernel
  | infinite negative => cases negative <;> decide +kernel
  | finite negative m e => contradiction

/--
A power with a decimal exponent is plotted in every notation as the function
of its label: a cube or a square if the exponent starts with `3` or `2`, and
otherwise the power itself.  So the curve has the exponent of its label exactly
if that does not start like a square or a cube without being one.  The solution
of a recurrence is plotted in the same way if its exponent is finite, and as `n`
if it is not.
-/
theorem ofLabel_has_exponent_iff (d : DecimalText) (branching reduction : Number)
    (work : String) :
    (∀ shown ∈ GrowthFunction.notations ("n^" ++ d.text),
      GrowthFunction.ofLabel shown = d.selected ∧
        ((GrowthFunction.ofLabel shown).exponent? = some d.value ↔ d.IsKept) ∧
        (d.IsKept → ∀ n, (GrowthFunction.ofLabel shown).value n =
          (GrowthFunction.power d.value).value n)) ∧
    (ExponentDecides (criticalExponent branching reduction) work →
      ∀ shown ∈
        GrowthFunction.notations
          (solveRecurrence branching reduction work).label,
        ((criticalExponent branching reduction).isFinite = true →
          ∃ d : DecimalText,
            d.text = (criticalExponent branching reduction).fixedText 4 ∧
            ((GrowthFunction.ofLabel shown).exponent? = some d.value ↔
              d.IsKept)) ∧
        ((criticalExponent branching reduction).isFinite = false →
          GrowthFunction.ofLabel shown = .identity)) := by
  constructor
  · intro shown hshown
    rw [GrowthFunction.ofLabel_of_mem_notations hshown, d.ofLabel_power]
    exact ⟨rfl, d.exponent?_selected_iff, fun kept =>
      GrowthFunction.value_of_exponent? (d.exponent?_selected_iff.2 kept)⟩
  · intro decides shown hshown
    rw [GrowthFunction.ofLabel_of_mem_notations hshown,
      solveRecurrence_eq_powerBound decides, powerBound_eq, Bound.label_ofLabel]
    refine ⟨fun hfinite => ?_, ofLabel_powerLabel_of_not_finite⟩
    obtain ⟨d, htext⟩ := exists_text_eq_fixedText hfinite
    refine ⟨d, htext, ?_⟩
    rw [← htext, ofLabel_powerLabel]
    exact d.exponent?_selected_iff

def oneHalf : DecimalText where
  negative := false
  whole := ['0']
  fraction := ['5']
  whole_ne_nil := by decide
  whole_digits := List.forall_mem_singleton.2 (by decide +kernel)
  fraction_digits := List.forall_mem_singleton.2 (by decide +kernel)

theorem ofLabel_has_exponent_iff_oneHalf :
    "n^0.5" ∈ GrowthFunction.notations ("n^" ++ oneHalf.text) ∧ oneHalf.IsKept ∧
      (GrowthFunction.ofLabel "n^0.5").exponent? = some oneHalf.value ∧
      ExponentDecides (criticalExponent (.whole 2) (.whole 4)) "O(1)" ∧
      ∃ d : DecimalText, d.text = "0.5000" ∧
        (GrowthFunction.ofLabel "O(n^0.5000)").exponent? = some d.value := by
  obtain ⟨hpower, hsolution⟩ :=
    ofLabel_has_exponent_iff oneHalf (.whole 2) (.whole 4) "O(1)"
  have hshown : "n^0.5" ∈ GrowthFunction.notations ("n^" ++ oneHalf.text) := by
    decide +kernel
  have kept : oneHalf.IsKept := by constructor <;> intro h <;> revert h <;> decide
  have decides :
      ExponentDecides (criticalExponent (.whole 2) (.whole 4)) "O(1)" := by
    decide +kernel
  obtain ⟨hfinite, -⟩ := hsolution decides "O(n^0.5000)" (by decide +kernel)
  obtain ⟨d, htext, hexponent⟩ := hfinite (by decide +kernel)
  have htext' : d.text = "0.5000" := htext.trans (by decide +kernel)
  have hhead : d.chars.head? = some '0' := by
    rw [← d.toList_text, htext']
    decide
  exact ⟨hshown, kept, (hpower _ hshown).2.1.2 kept, decides, d, htext',
    hexponent.2 ⟨by simp [hhead], by simp [hhead]⟩⟩

def twoAndHalf : DecimalText where
  negative := false
  whole := ['2']
  fraction := ['5']
  whole_ne_nil := by decide
  whole_digits := List.forall_mem_singleton.2 (by decide +kernel)
  fraction_digits := List.forall_mem_singleton.2 (by decide +kernel)

/-- An exponent that starts like a square is plotted as one. -/
theorem ofLabel_captures_exponent :
    twoAndHalf.text = "2.5" ∧ GrowthFunction.ofLabel "n^2.5" = .square ∧
      (GrowthFunction.ofLabel "n^2.5").value 4 = .ok (some (.ofNat 16)) ∧
      (GrowthFunction.power twoAndHalf.value).value 4 =
        .ok (some (.ofNat 32)) := by
  refine ⟨?_, ?_, ?_, ?_⟩ <;> decide +kernel

end SnippetGrowth
