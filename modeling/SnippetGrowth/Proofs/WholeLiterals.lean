import SnippetGrowth.Proofs.DecimalTexts
import SnippetGrowth.Proofs.Rounding
import SnippetGrowth.Proofs.WrittenDigits

/-!
# Whole numbers as literals

None of the characters that write a whole number can be taken for the final `n`
of a literal without a value, and no decimal digit for a mark, so every literal
is read in its own base.  Digits with a mark are read as the number that they
write, decimal digits, zeros in front of them or not, as the nearest double,
which is the number itself as long as it fits a significand.
-/

namespace SnippetGrowth

open Text Numeral

variable {base : Nat}

/-! ## Decimal digits -/

private theorem digitsValue_of_forall₂ {chars : List Char} {digits : List Nat}
    (h : List.Forall₂ (IsDigitOf 10) chars digits) :
    digitsValue chars = Nat.ofDigits 10 digits.reverse := by
  have hvalues : chars.filterMap digitValue? = digits := by
    induction h with
    | nil => rfl
    | cons hdigit rest ih => rw [List.filterMap_cons_some hdigit.decimal.2.1, ih]
  rw [digitsValue, hvalues, ofDigits_reverse]

private theorem decimal_of_spells {text : List Char} {digits : List Nat}
    (h : Spells 10 text digits) :
    decimal (withoutLowLines text) =
      .ok (.ofDouble (.ofNat (Nat.ofDigits 10 digits.reverse))) := by
  have hdigits := h.forall₂_withoutLowLines (by decide)
  have hne := h.withoutLowLines_ne_nil (by decide)
  have hvalues : ∀ c ∈ withoutLowLines text, isDigit c = true := by
    intro c hc
    obtain ⟨digit, hdigit⟩ := h.mem_withoutLowLines hc
    rw [isDigit, hdigit.decimal.2.1]
    rfl
  have hread := DecimalText.decimal?_chars
    ⟨false, withoutLowLines text, [], hne, hvalues, List.forall_mem_nil _⟩
  simp only [DecimalText.chars, DecimalText.magnitude, DecimalText.places,
    DecimalText.value, List.append_nil, if_true, Bool.false_eq_true, if_false,
    List.length_nil, Nat.pow_zero,
    digitsValue_of_forall₂ hdigits] at hread
  rw [decimal, hread]
  rfl

/-! ## Reading -/

theorem Spells.n_not_mem {text : List Char} {digits : List Nat}
    (h : Spells base text digits) (hbase : base ≤ 16) : 'n' ∉ text := by
  intro hmem
  rcases h.mem hmem with hlow | ⟨digit, hdigit⟩
  · contradiction
  · exact (hdigit.plain hbase).2.1 rfl

namespace Writes

variable {chars : List Char} {value : Nat}

theorem n_not_mem (h : Writes chars base value) : 'n' ∉ chars := by
  cases h with
  | @marked mark _ text digits hmark h =>
      obtain ⟨-, hbase, -, -, hn, -⟩ := baseMark_plain _ hmark
      simp [h.n_not_mem hbase, Ne.symm hn]
  | decimal h => exact h.n_not_mem (by decide)

private theorem scriptNumeral_eq {literal : String}
    (h : Writes literal.toList base value) :
    scriptNumeral literal =
      .ok (some (if base = 10 then .ofDouble (.ofNat value)
        else .whole value)) := by
  have hlast : literal.toList.getLast? ≠ some 'n' :=
    fun hlast => h.n_not_mem (List.mem_of_getLast? hlast)
  rw [scriptNumeral]
  dsimp only
  rw [if_neg hlast]
  generalize literal.toList = chars at h
  cases h with
  | @marked mark _ text digits hmark h =>
      obtain ⟨hannounced, -, hten, -⟩ := baseMark_plain _ hmark
      have hbase : announced? ('0' :: mark :: text) = some base := hannounced
      rw [hbase, if_neg hten]
      dsimp only
      rw [based_of_spells hmark h]
      rfl
  | decimal h =>
      rw [announced?_of_spells h, if_pos rfl]
      dsimp only
      rw [decimal_of_spells h]
      rfl

end Writes

/--
A literal of a whole number always has a value.  Behind the mark of a base it is
the number itself, whatever its size; a decimal literal is read as the nearest
double, and that is the number itself up to the first power of two that takes
more bits than a significand has.  The same literal with an `n` behind it has
no value.
-/
theorem scriptNumeral_of_writes {literal : String} {base value : Nat}
    (h : Writes literal.toList base value) :
    (base ≠ 10 → scriptNumeral literal = .ok (some (.whole value))) ∧
      (base = 10 →
        scriptNumeral literal = .ok (some (.ofDouble (.ofNat value)))) ∧
      (base = 10 → value ≤ 2 ^ 53 →
        scriptNumeral literal = .ok (some (.whole value))) ∧
      scriptNumeral (literal ++ "n") = .ok none := by
  refine ⟨fun hbase => ?_, fun hbase => ?_, fun hbase hsmall => ?_, ?_⟩
  · rw [h.scriptNumeral_eq, if_neg hbase]
  · rw [h.scriptNumeral_eq, if_pos hbase]
  · rw [h.scriptNumeral_eq, if_pos hbase, Number.ofDouble,
      Double.toInt?_ofNat hsmall]
  · have hlast : (literal ++ "n").toList.getLast? = some 'n' := by
      simp [String.toList_append]
    rw [scriptNumeral]
    dsimp only
    rw [if_pos hlast]

theorem scriptNumeral_of_writes_separated :
    Writes "0Xf_E".toList 16 254 ∧
    scriptNumeral "0Xf_E" = .ok (some (.whole 254)) ∧
      Writes "2_54".toList 10 254 ∧
      scriptNumeral "2_54" = .ok (some (.whole 254)) ∧
      scriptNumeral "2_54n" = .ok none := by
  have hletters : Spells 16 ['f', '_', 'E'] [15, 14] :=
    .apart ⟨by decide, .inl (by decide)⟩ (.last ⟨by decide, .inr (by decide)⟩)
  have hdigits : Spells 10 ['2', '_', '5', '4'] [2, 5, 4] :=
    .apart ⟨by decide, .inl (by decide)⟩
      (.next ⟨by decide, .inl (by decide)⟩ (.last ⟨by decide, .inl (by decide)⟩))
  have hmark : ('X', 16) ∈ baseMarks := by decide
  have hmarked : Writes "0Xf_E".toList 16 254 := .marked hmark hletters
  have hdecimal : Writes "2_54".toList 10 254 := .decimal hdigits
  obtain ⟨hread, -⟩ := scriptNumeral_of_writes hmarked
  obtain ⟨-, -, hsmall, hlong⟩ := scriptNumeral_of_writes hdecimal
  exact ⟨hmarked, hread (by decide), hdecimal, hsmall rfl (by decide), hlong⟩

example :
    scriptNumeral "9007199254740993" =
      .ok (some (.whole 9007199254740992)) := by
  decide +kernel

end SnippetGrowth
