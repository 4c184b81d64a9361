import SnippetGrowth.Proofs.Characters
import SnippetGrowth.Proofs.Limits
import SnippetGrowth.Proofs.Nearest

/-!
# Values of decimal texts

A decimal text is an optional minus, digits, and a point with digits.  It is
read as the double nearest to the quotient that it writes, whichever script its
digits are of.  Very long and very short magnitudes are cut off before any
power of ten is formed, where the nearest double is infinite or zero anyway.
-/

namespace SnippetGrowth

open Text Numeral

/-! ## Digits -/

theorem normal_eq_digitChar {c : Char} {value : Nat}
    (h : digitValue? c = some value) :
    normal c = value.digitChar := by
  rw [normal, h]

theorem digit_of_lt_ten {value : Nat} (h : value < 10) :
    value.digitChar.isDigit = true ∧ digitValue? value.digitChar = some value ∧
      (value.digitChar = '0' ↔ value = 0) := by
  have hall : ∀ value < 10, value.digitChar.isDigit = true ∧
      digitValue? value.digitChar = some value ∧
          (value.digitChar = '0' ↔ value = 0) := by
    decide +kernel
  exact hall value h

theorem isDigit_normal {c : Char} (h : isDigit c = true) :
    (normal c).isDigit = true := by
  obtain ⟨value, hvalue⟩ := Option.isSome_iff_exists.1 h
  rw [normal_eq_digitChar hvalue]
  exact (digit_of_lt_ten (digitValue?_lt hvalue)).1

private theorem digitValue?_normal (c : Char) :
    digitValue? (normal c) = digitValue? c := by
  cases hvalue : digitValue? c with
  | none => simp [normal, hvalue]
  | some value =>
      rw [normal_eq_digitChar hvalue]
      exact (digit_of_lt_ten (digitValue?_lt hvalue)).2.1

theorem digitsValue_map_normal (digits : List Char) :
    digitsValue (digits.map normal) = digitsValue digits := by
  rw [digitsValue, digitsValue, List.filterMap_map]
  congr 1
  exact List.filterMap_congr fun c _ => digitValue?_normal c

theorem digitsValue_dropWhile_zero (digits : List Char) :
    digitsValue (digits.dropWhile (· == '0')) = digitsValue digits := by
  have hzero : digitValue? '0' = some 0 := by decide +kernel
  induction digits with
  | nil => rfl
  | cons c digits ih =>
      by_cases hc : c = '0'
      · subst hc
        simp only [List.dropWhile_cons, beq_self_eq_true, if_true, ih]
        simp [digitsValue, hzero]
      · simp [hc]

theorem exists_digitValue {c : Char} (h : c.isDigit = true) :
    ∃ value, digitValue? c = some value ∧ (c ≠ '0' → 1 ≤ value) := by
  have hall : ∀ n < 128, (Char.ofNat n).isDigit = true →
      (digitValue? (Char.ofNat n)).any
          (fun value => Char.ofNat n = '0' || 1 ≤ value) = true := by
    decide +kernel
  have hany := of_forall_ascii (p := fun c => c.isDigit = true →
    (digitValue? c).any (fun value => c = '0' || 1 ≤ value) =
      true) hall (toNat_lt_of_isDigit h) h
  cases hvalue : digitValue? c with
  | none => simp [hvalue] at hany
  | some value =>
      refine ⟨value, rfl, fun hc => ?_⟩
      simpa [hvalue, hc] using hany

private theorem mul_pow_le_foldl (values : List Nat) (start : Nat) :
    start * 10 ^ values.length ≤
    values.foldl (fun value digit => 10 * value + digit) start := by
  induction values generalizing start with
  | nil => simp
  | cons first values ih =>
      rw [List.foldl_cons, List.length_cons, Nat.pow_succ]
      calc start * (10 ^ values.length * 10) =
        10 * start * 10 ^ values.length := by ring
        _ ≤ (10 * start + first) * 10 ^ values.length :=
            Nat.mul_le_mul_right _ (by omega)
        _ ≤ _ := ih _

theorem pow_le_digitsValue {c : Char} {rest : List Char}
    (hdigits : ∀ d ∈ c :: rest, d.isDigit = true) (hc : c ≠ '0') :
    10 ^ rest.length ≤ digitsValue (c :: rest) := by
  obtain ⟨value, hvalue, hone⟩ := exists_digitValue (hdigits c List.mem_cons_self)
  have hlength : (rest.filterMap digitValue?).length = rest.length := by
    rw [List.length_filterMap_eq_countP, List.countP_eq_length]
    intro d hd
    obtain ⟨value, hvalue, -⟩ :=
      exists_digitValue (hdigits d (List.mem_cons_of_mem c hd))
    rw [hvalue]
    rfl
  rw [digitsValue, List.filterMap_cons_some hvalue, List.foldl_cons, Nat.mul_zero,
    Nat.zero_add]
  calc 10 ^ rest.length =
    1 * 10 ^ (rest.filterMap digitValue?).length := by rw [hlength, one_mul]
    _ ≤ value * 10 ^ (rest.filterMap digitValue?).length :=
        Nat.mul_le_mul_right _ (hone hc)
    _ ≤ _ := mul_pow_le_foldl _ _

/-! ## Extremes -/

namespace Double

private theorem two_zpow_le_nearest {n d : Nat} (hn : n ≠ 0) (hd : d ≠ 0)
    {e : Int} (he : -1022 < e) (h : (2 : ℝ) ^ e ≤ n / d) :
    (2 : ℝ) ^ e ≤ nearest n d := by
  have hexponent : e ≤ binaryExponent n d := by
    have hpower := h.trans_lt (binaryExponent_bounds hn hd).2
    have := (zpow_lt_zpow_iff_right₀ one_lt_two).1 hpower
    omega
  have hquantum : e - 52 ≤ quantum n d := by
    rw [quantum_eq]
    omega
  have hlong : (2 : ℝ) ^ 52 ≤ multiples (quantum n d) n d := by
    exact_mod_cast le_multiples_quantum hn hd (by omega)
  calc (2 : ℝ) ^ e = 2 ^ 52 * 2 ^ (e - 52) := by
        rw [two_zpow_mul]
        congr 1
        push_cast
        omega
    _ ≤ 2 ^ 52 * 2 ^ quantum n d := by
        gcongr
        exact one_le_two
    _ ≤ nearest n d := by
        unfold nearest
        gcongr

private theorem ofRatio_eq_infinite (negative : Bool) {n d : Nat} (hd : d ≠ 0)
    (h : (2 : ℝ) ^ 1024 ≤ n / d) : ofRatio negative n d = infinite negative := by
  have hpower : (2 : ℝ) ^ (1024 : Int) = 2 ^ 1024 := by
    rw [← zpow_natCast (2 : ℝ) 1024, Nat.cast_ofNat]
  have hn : n ≠ 0 := by
    rintro rfl
    rw [Nat.cast_zero, zero_div] at h
    exact absurd h (by positivity : (0 : ℝ) < 2 ^ 1024).not_ge
  rw [← hpower] at h
  have hnearest := two_zpow_le_nearest hn hd (by decide) h
  rw [hpower] at hnearest
  rcases ofRatio_cases negative n hd with ⟨m, e, -, -, hrange, -⟩ | ⟨-, hdouble⟩
  · exact absurd hrange hnearest.not_gt
  · exact hdouble

private theorem nearest_tiny : nearest 1 (2 ^ 1200) = 0 := by
  have hmultiples : multiples (quantum 1 (2 ^ 1200)) 1 (2 ^ 1200) = 0 := by
    decide +kernel
  rw [nearest, hmultiples, Nat.cast_zero, zero_mul]

private theorem ofRatio_eq_signedZero (negative : Bool) {n d : Nat} (hd : d ≠ 0)
    (h : (n / d : ℝ) ≤ 1 / 2 ^ 1200) :
    ofRatio negative n d = signedZero negative := by
  have hnearest : nearest n d ≤ 0 := by
    rw [← nearest_tiny]
    refine nearest_le_nearest hd (pow_ne_zero 1200 two_ne_zero) (h.trans_eq ?_)
    rw [Nat.cast_one, Nat.cast_pow, Nat.cast_ofNat]
  rcases ofRatio_cases negative n hd with
    ⟨m, e, hdouble, hvalue, -, hnormal⟩ | ⟨hpast, -⟩
  · have hm : m = 0 := by
      by_contra hm
      have hpositive : (0 : ℝ) < m * 2 ^ e := by positivity
      exact absurd hpositive (hvalue.trans_le hnearest).not_gt
    subst hm
    have he : e = -1074 := hnormal.2.2.resolve_left (by norm_num)
    rw [hdouble, he]
    rfl
  · exact absurd (hpast.trans hnearest)
      (by positivity : (0 : ℝ) < 2 ^ 1024).not_ge

end Double

theorem ofDigits_eq (negative : Bool) {digits : List Char} (places : Nat)
    (hdigits : ∀ c ∈ digits, c.isDigit = true) (hhead : digits.head? ≠ some '0') :
    ofDigits negative digits (-places) =
      .ofRatio negative (digitsValue digits) (10 ^ places) := by
  have hpower : (2 : ℝ) ^ 1200 ≤ 10 ^ 400 := by
    calc (2 : ℝ) ^ 1200 = (2 ^ 3) ^ 400 := by rw [← pow_mul]
      _ ≤ 10 ^ 400 := by gcongr; norm_num
  have hten : 10 ^ places ≠ 0 := (Nat.pow_pos (by decide)).ne'
  cases digits with
  | nil => rfl
  | cons c rest =>
      have hlow := pow_le_digitsValue hdigits (by simpa using hhead)
      have hhigh := digitsValue_lt (c :: rest)
      have hratio : ∀ {upper lower : Nat}, lower + 400 ≤ upper →
          (2 : ℝ) ^ 1200 ≤ 10 ^ upper / 10 ^ lower := by
        intro upper lower hdistance
        rw [le_div_iff₀ (by positivity)]
        calc (2 : ℝ) ^ 1200 * 10 ^ lower ≤ 10 ^ 400 * 10 ^ lower := by gcongr
          _ = 10 ^ (lower + 400) := by rw [pow_add, mul_comm]
          _ ≤ 10 ^ upper := pow_le_pow_right₀ (by norm_num) hdistance
      -- Magnitudes are cut off from 400 powers of ten on, far past the range on
      -- either side.
      unfold ofDigits
      split
      · next hshort =>
          have hdistance : (c :: rest).length + 400 ≤ places := by
            simp only [List.isEmpty_cons, Bool.false_or,
              decide_eq_true_eq] at hshort
            omega
          refine (Double.ofRatio_eq_signedZero negative hten ?_).symm
          rw [Nat.cast_pow, Nat.cast_ofNat,
            div_le_div_iff₀ (by positivity) (by positivity), one_mul]
          calc (digitsValue (c :: rest) : ℝ) * 2 ^ 1200
              ≤ 10 ^ (c :: rest).length *
                  (10 ^ places / 10 ^ (c :: rest).length) := by
                gcongr
                · exact_mod_cast hhigh.le
                · exact hratio hdistance
            _ = 10 ^ places := by field_simp
      · split
        · next hlong =>
            have hdistance : places + 400 ≤ rest.length := by
              rw [List.length_cons] at hlong
              omega
            refine (Double.ofRatio_eq_infinite negative hten ?_).symm
            calc (2 : ℝ) ^ 1024 ≤ 2 ^ 1200 :=
              pow_le_pow_right₀ one_le_two (by norm_num)
              _ ≤ 10 ^ rest.length / 10 ^ places := hratio hdistance
              _ ≤ digitsValue (c :: rest) / (10 ^ places : Nat) := by
                  rw [Nat.cast_pow, Nat.cast_ofNat]
                  gcongr
                  exact_mod_cast hlow
        · have hup : (-(places : Int)).toNat = 0 := by omega
          simp [Double.ofDecimal, hup]

/-! ## Decimal texts -/

/-- A decimal text: digits in front of the point, perhaps digits behind it,
perhaps a minus. -/
structure DecimalText where
  negative : Bool
  whole : List Char
  fraction : List Char
  whole_ne_nil : whole ≠ []
  whole_digits : ∀ c ∈ whole, isDigit c = true
  fraction_digits : ∀ c ∈ fraction, isDigit c = true

namespace DecimalText

def places (fraction : List Char) : List Char :=
  if fraction = [] then [] else '.' :: fraction

def magnitude (d : DecimalText) : List Char := d.whole ++ places d.fraction

def chars (d : DecimalText) : List Char :=
  if d.negative then '-' :: d.magnitude else d.magnitude

def text (d : DecimalText) : String := String.ofList d.chars

def value (d : DecimalText) : Double :=
  .ofRatio d.negative (digitsValue (d.whole ++ d.fraction))
    (10 ^ d.fraction.length)

theorem mem_magnitude {d : DecimalText} {c : Char} (h : c ∈ d.magnitude) :
    c = '.' ∨ isDigit c = true := by
  rcases List.mem_append.1 h with hwhole | hplaces
  · exact .inr (d.whole_digits c hwhole)
  · unfold places at hplaces
    split at hplaces
    · simp at hplaces
    · exact (List.mem_cons.1 hplaces).imp_right (d.fraction_digits c)

theorem mem_chars {d : DecimalText} {c : Char} (h : c ∈ d.chars) :
    c = '-' ∨ c = '.' ∨ isDigit c = true := by
  unfold chars at h
  split at h
  · exact (List.mem_cons.1 h).imp_right mem_magnitude
  · exact .inr (mem_magnitude h)

theorem isMargin_of_mem_chars {d : DecimalText} {c : Char} (h : c ∈ d.chars) :
    isMargin c = false := by
  rcases mem_chars h with rfl | rfl | hdigit
  · decide
  · decide
  · cases hblank : isBlank c with
    | false => simp [isMargin, hblank]
    | true =>
        rw [isDigit_eq_false_of_isBlank hblank] at hdigit
        contradiction

private theorem places_map_normal (fraction : List Char) :
    (places fraction).map normal = places (fraction.map normal) := by
  have hpoint : normal '.' = '.' := by decide +kernel
  unfold places
  split
  · next hnone => simp [hnone]
  · next hsome => simp [hsome, hpoint]

/-! ## Reading -/

private theorem named?_eq_none (negative : Bool) {c : Char} {rest : List Char}
    (h : c.isDigit = true) :
    named? negative (c :: rest) = none := by
  have hall : ∀ n < 128, (Char.ofNat n).isDigit = true →
      (Char.ofNat n).toLower ≠ 'i' ∧ (Char.ofNat n).toLower ≠ 'n' := by
        decide +kernel
  obtain ⟨hi, hn⟩ := of_forall_ascii (p := fun c => c.isDigit = true →
    c.toLower ≠ 'i' ∧ c.toLower ≠ 'n') hall (toNat_lt_of_isDigit h) h
  simp [named?, hi, hn]

private theorem unsigned?_places (negative : Bool) {whole fraction : List Char}
    (hnonempty : whole ≠ []) (hwhole : ∀ c ∈ whole, c.isDigit = true)
    (hfraction : ∀ c ∈ fraction, c.isDigit = true) :
    unsigned? negative (whole ++ places fraction) =
      some (.ofRatio negative (digitsValue (whole ++ fraction))
        (10 ^ fraction.length)) := by
  have hempty : whole.isEmpty = false := by simpa using hnonempty
  have hpoint : ∀ c ∈ (places fraction).head?, c.isDigit = false := by
    unfold places
    split
    · simp
    · simp
  have hspan := Scan.span_eq_of_inside hwhole hpoint
  have hdigits : ∀ c ∈ (whole ++ fraction).dropWhile (· == '0'),
      c.isDigit = true := by
    intro c hc
    rcases List.mem_append.1 (List.dropWhile_sublist _ |>.subset hc) with hc | hc
    · exact hwhole c hc
    · exact hfraction c hc
  have hhead : ((whole ++ fraction).dropWhile (· == '0')).head? ≠ some '0' := by
    intro hzero
    have := List.head?_dropWhile_not (· == '0') (whole ++ fraction)
    rw [hzero] at this
    simp at this
  have hvalue := ofDigits_eq negative fraction.length hdigits hhead
  rw [digitsValue_dropWhile_zero] at hvalue
  cases fraction with
  | nil =>
      have hexponent : exponent? [] = some 0 := rfl
      simp only [unsigned?, hspan]
      simp only [places, if_true, hempty, Bool.false_and, Bool.false_eq_true,
        if_false, hexponent, Option.map_some, zero_sub, hvalue]
  | cons c rest =>
      have hrest : (c :: rest).span Char.isDigit = (c :: rest, []) := by
        simpa using
          Scan.span_eq_of_inside hfraction (show ∀ d ∈ ([] : List Char).head?,
          _ by simp)
      have hexponent : exponent? [] = some 0 := rfl
      simp only [unsigned?, hspan]
      simp only [places, List.cons_ne_nil, if_false, hrest, hempty,
        Bool.false_and, Bool.false_eq_true, hexponent, Option.map_some,
        zero_sub, hvalue]

theorem decimal?_chars (d : DecimalText) : decimal? d.chars = some d.value := by
  have hmargins : dropMargins d.chars = d.chars :=
    dropMargins_eq_self fun c hc => isMargin_of_mem_chars hc
  have hmagnitude : d.magnitude.map normal =
      d.whole.map normal ++ places (d.fraction.map normal) := by
    rw [magnitude, List.map_append, places_map_normal]
  have hwhole : ∀ c ∈ d.whole.map normal, c.isDigit = true := by
    intro c hc
    obtain ⟨digit, hdigit, rfl⟩ := List.mem_map.1 hc
    exact isDigit_normal (d.whole_digits digit hdigit)
  have hfraction : ∀ c ∈ d.fraction.map normal, c.isDigit = true := by
    intro c hc
    obtain ⟨digit, hdigit, rfl⟩ := List.mem_map.1 hc
    exact isDigit_normal (d.fraction_digits digit hdigit)
  obtain ⟨first, rest, hfirst⟩ := List.exists_cons_of_ne_nil
    (show d.whole.map normal ≠ [] by simpa using d.whole_ne_nil)
  have hdigit : first.isDigit = true := hwhole first (by simp [hfirst])
  have hsign : sign (d.chars.map normal) =
      (d.negative, d.magnitude.map normal) := by
    cases hnegative : d.negative with
    | true =>
        have hminus : normal '-' = '-' := by decide +kernel
        simp [chars, hnegative, hminus, sign]
    | false =>
        rw [chars, hnegative, if_neg Bool.false_ne_true]
        refine sign_eq_of_head? fun c hc => ?_
        rw [hmagnitude, hfirst, List.cons_append, List.head?_cons,
          Option.mem_some_iff] at hc
        subst hc
        constructor <;> rintro rfl <;> contradiction
  have hread := unsigned?_places d.negative
    (by rw [hfirst]; exact List.cons_ne_nil _ _) hwhole hfraction
  rw [← List.map_append, digitsValue_map_normal, List.length_map] at hread
  rw [decimal?, hmargins, hsign]
  dsimp only
  rw [hmagnitude, hread, hfirst, List.cons_append, named?_eq_none _ hdigit]
  rfl

end DecimalText

end SnippetGrowth
