import SnippetGrowth.Proofs.Matching
import SnippetGrowth.Proofs.Traversal
import SnippetGrowth.Proofs.WrittenDigits
import SnippetGrowth.Scan.Constructs

/-!
# Numerals of scripts have values

A parser is known here by what its grammar says about numbers: how one may be
spelled, and that it is the node behind an operator.  Every such text has a
value, or ends in `n` and has none: without its low lines it is a run of digits
behind the mark of a base, or digits with a point and an exponent.  So no scan
of a script stops at a literal.
-/

namespace SnippetGrowth

open Scan Numeral

/-! ## Number tokens -/

def IsDigits (text : List Char) : Prop := ∃ digits, Spells 10 text digits

inductive IsExponentPart : List Char → Prop where
  | marked {mark : Char} {sign digits : List Char}
      (hmark : mark = 'e' ∨ mark = 'E')
      (hsign : sign = [] ∨ sign = ['+'] ∨ sign = ['-'])
        (hdigits : IsDigits digits) :
      IsExponentPart (mark :: (sign ++ digits))

/--
The texts of number tokens: whole numbers, also with a final `n`, and decimal
digits with a point, with an exponent or with both.
-/
inductive IsNumeral : List Char → Prop where
  | whole {text : List Char} {base value : Nat} (h : Writes text base value) :
      IsNumeral text
  | big {text : List Char} {base value : Nat} (h : Writes text base value) :
      IsNumeral (text ++ ['n'])
  | pointed {whole fraction exponent : List Char}
      (hwhole : whole = [] ∨ IsDigits whole)
      (hfraction : fraction = [] ∨ IsDigits fraction)
      (hdigits : whole ≠ [] ∨ fraction ≠ [])
      (hexponent : exponent = [] ∨ IsExponentPart exponent) :
      IsNumeral (whole ++ '.' :: (fraction ++ exponent))
  | scaled {whole exponent : List Char} (hwhole : IsDigits whole)
      (hexponent : IsExponentPart exponent) : IsNumeral (whole ++ exponent)

structure Tree.HasNumerals (tree : Tree) : Prop where
  numeral : ∀ node ∈ tree.root.preorder, node.kind = "number" →
    node.named = true →
    IsNumeral node.text.toList
  operand : ∀ node ∈ tree.root.preorder, node.kind = "binary_expression" →
    ∀ right, node.child? "right" = some right → right.named = true

/--
What the grammar of scripts says about numbers: in a script without an error a
node for a number covers a number token, and what stands on the right of an
operator is a node for an expression, no keyword of the same name.
-/
def Parser.ReadsNumerals (parse : Parser) : Prop :=
  ∀ code, (parse code).hasError = false → (parse code).HasNumerals

/-! ## Decimal numerals without low lines -/

def isDecimalPart (c : Char) : Bool :=
  c.isDigit || ['.', 'e', 'E', '+', '-'].contains c

theorem toNat_lt_of_isDigit {c : Char} (h : c.isDigit = true) :
    c.toNat < 128 := by
  simp only [Char.isDigit, Bool.and_eq_true, decide_eq_true_eq] at h
  have hupper := UInt32.le_iff_toNat_le.1 h.2
  exact Nat.lt_of_le_of_lt hupper (by decide)

private theorem toNat_lt_of_isDecimalPart {c : Char}
    (h : isDecimalPart c = true) :
    c.toNat < 128 := by
  simp only [isDecimalPart, Bool.or_eq_true, List.contains_iff_mem] at h
  rcases h with hdigit | hmark
  · exact toNat_lt_of_isDigit hdigit
  · simp only [List.mem_cons, List.not_mem_nil, or_false] at hmark
    rcases hmark with rfl | rfl | rfl | rfl | rfl <;> decide

private theorem plain_of_isDecimalPart {c : Char} (h : isDecimalPart c = true) :
    isMargin c = false ∧ normal c = c ∧ base? c = none := by
  have hall : ∀ n < 128, isDecimalPart (Char.ofNat n) = true →
      isMargin (Char.ofNat n) = false ∧ normal (Char.ofNat n) = Char.ofNat n ∧
        base? (Char.ofNat n) = none := by
    decide +kernel
  exact of_forall_ascii (p := fun c => isDecimalPart c = true →
    isMargin c = false ∧ normal c = c ∧
    base? c = none) hall (toNat_lt_of_isDecimalPart h) h

structure IsRun (run : List Char) : Prop where
  nonempty : run ≠ []
  inside : ∀ c ∈ run, c.isDigit = true

inductive IsExponent : List Char → Prop where
  | missing : IsExponent []
  | marked {mark : Char} {sign digits : List Char}
      (hmark : mark = 'e' ∨ mark = 'E')
      (hsign : sign = [] ∨ sign = ['+'] ∨ sign = ['-']) (hdigits : IsRun digits) :
      IsExponent (mark :: (sign ++ digits))

structure IsDecimal (text : List Char) : Prop where
  parts : ∃ whole fraction exponent, text = whole ++ fraction ++ exponent ∧
    (∀ c ∈ whole, c.isDigit = true) ∧
    (fraction = [] ∨ ∃ digits, fraction = '.' :: digits ∧ ∀ c ∈ digits,
      c.isDigit = true) ∧
    (∃ c ∈ whole ++ fraction, c.isDigit = true) ∧ IsExponent exponent

theorem sign_eq_of_head? {text : List Char}
    (h : ∀ c ∈ text.head?, c ≠ '-' ∧ c ≠ '+') :
    Numeral.sign text = (false, text) := by
  unfold Numeral.sign
  split
  · exact absurd rfl (h '-' rfl).1
  · exact absurd rfl (h '+' rfl).2
  · rfl

namespace IsExponent

variable {text : List Char}

private theorem isSome_exponent? (h : IsExponent text) :
    (exponent? text).isSome = true := by
  cases h with
  | missing => rfl
  | @marked mark sign digits hmark hsign hdigits =>
      have hlower : mark.toLower = 'e' := by rcases hmark with rfl | rfl <;> rfl
      have hrest : ∃ negative,
          Numeral.sign (sign ++ digits) = (negative, digits) := by
        rcases hsign with rfl | rfl | rfl
        · refine ⟨false, sign_eq_of_head? fun c hc => ?_⟩
          have hdigit := hdigits.inside c (List.mem_of_head? hc)
          constructor <;> rintro rfl <;> contradiction
        · exact ⟨false, rfl⟩
        · exact ⟨true, rfl⟩
      obtain ⟨negative, hrest⟩ := hrest
      have hempty : digits.isEmpty = false := by simpa using hdigits.nonempty
      have hall : digits.all Char.isDigit = true :=
        List.all_eq_true.2 hdigits.inside
      simp [exponent?, hlower, hrest, hempty, hall]

private theorem isDecimalPart_of_mem (h : IsExponent text) {c : Char}
    (hc : c ∈ text) :
    isDecimalPart c = true := by
  cases h with
  | missing => simp at hc
  | @marked mark sign digits hmark hsign hdigits =>
      rcases List.mem_cons.1 hc with rfl | hc
      · rcases hmark with rfl | rfl <;> decide
      · rcases List.mem_append.1 hc with hc | hc
        · rcases hsign with rfl | rfl | rfl
          · simp at hc
          · rw [List.mem_singleton.1 hc]
            decide
          · rw [List.mem_singleton.1 hc]
            decide
        · simp [isDecimalPart, hdigits.inside c hc]

private theorem head?_not_digit (h : IsExponent text) :
    ∀ c ∈ text.head?, c.isDigit = false ∧ c ≠ '.' := by
  cases h with
  | missing => simp
  | @marked mark sign digits hmark hsign hdigits =>
      rintro c ⟨⟩
      rcases hmark with rfl | rfl <;> decide

end IsExponent

namespace IsDecimal

variable {text : List Char}

private theorem isDecimalPart_of_mem (h : IsDecimal text) {c : Char}
    (hc : c ∈ text) :
    isDecimalPart c = true := by
  obtain ⟨whole, fraction, exponent, rfl, hwhole, hfraction, -, hexponent⟩ :=
    h.parts
  rcases List.mem_append.1 hc with hc | hc
  · rcases List.mem_append.1 hc with hc | hc
    · simp [isDecimalPart, hwhole c hc]
    · rcases hfraction with rfl | ⟨digits, rfl, hdigits⟩
      · simp at hc
      · rcases List.mem_cons.1 hc with rfl | hc
        · decide
        · simp [isDecimalPart, hdigits c hc]
  · exact hexponent.isDecimalPart_of_mem hc

private theorem isSome_unsigned? (h : IsDecimal text) (negative : Bool) :
    (unsigned? negative text).isSome = true := by
  obtain ⟨whole, fraction, exponent, rfl, hwhole, hfraction, ⟨c, hc, hdigit⟩,
      hexponent⟩ :=
    h.parts
  have hhead := hexponent.head?_not_digit
  have hvalue := hexponent.isSome_exponent?
  rcases hfraction with rfl | ⟨digits, rfl, hdigits⟩
  · have hspan : (whole ++ [] ++ exponent).span Char.isDigit =
        (whole, exponent) := by
      rw [List.append_nil]
      exact span_eq_of_inside hwhole fun d hd => (hhead d hd).1
    have hnonempty : whole.isEmpty = false := by
      cases whole with
      | nil => simp at hc
      | cons => rfl
    unfold unsigned?
    simp only [hspan]
    split
    · next rest heq => exact absurd rfl (hhead '.' rfl).2
    · simp [hnonempty, hvalue]
  · have hspan : (whole ++ '.' :: digits ++ exponent).span Char.isDigit =
        (whole, '.' :: (digits ++ exponent)) := by
      rw [List.append_assoc]
      exact span_eq_of_inside hwhole (by simp)
    have hfraction : (digits ++ exponent).span Char.isDigit =
        (digits, exponent) :=
      span_eq_of_inside hdigits fun d hd => (hhead d hd).1
    have hnonempty : (whole.isEmpty && digits.isEmpty) = false := by
      rw [Bool.and_eq_false_iff]
      rcases List.mem_append.1 hc with hc | hc
      · left
        cases whole with
        | nil => simp at hc
        | cons => rfl
      · right
        cases digits with
        | nil =>
            rw [List.mem_singleton.1 hc] at hdigit
            contradiction
        | cons => rfl
    unfold unsigned?
    simp only [hspan, hfraction, hnonempty, Bool.false_eq_true, if_false,
      Option.isSome_map, hvalue]

private theorem sign_eq (h : IsDecimal text) :
    Numeral.sign text = (false, text) := by
  obtain ⟨whole, fraction, exponent, rfl, hwhole, hfraction, ⟨c, hc, hdigit⟩,
    -⟩ := h.parts
  refine sign_eq_of_head? fun d hd => ?_
  have hfirst : d ∈ (whole ++ fraction).head? := by
    rwa [List.head?_append_of_ne_nil _ (List.ne_nil_of_mem hc)] at hd
  have hkind : d.isDigit = true ∨ d = '.' := by
    rcases List.mem_append.1 (List.mem_of_head? hfirst) with hd | hd
    · exact .inl (hwhole d hd)
    · rcases hfraction with rfl | ⟨digits, rfl, hdigits⟩
      · simp at hd
      · exact (List.mem_cons.1 hd).symm.imp_left (hdigits d)
  constructor <;> rintro rfl <;> revert hkind <;> decide

theorem exists_decimal (h : IsDecimal text) :
    ∃ value, decimal text = .ok value := by
  have hmargins : dropMargins text = text :=
    dropMargins_eq_self fun c hc =>
      (plain_of_isDecimalPart (h.isDecimalPart_of_mem hc)).1
  have hnormal : text.map normal = text := by
    have heach : text.map normal = text.map id := List.map_congr_left fun c hc =>
      (plain_of_isDecimalPart (h.isDecimalPart_of_mem hc)).2.1
    rw [heach, List.map_id]
  have hsome : (decimal? text).isSome = true := by
    rw [decimal?, hmargins, hnormal, h.sign_eq]
    simp [h.isSome_unsigned?]
  obtain ⟨value, hvalue⟩ := Option.isSome_iff_exists.1 hsome
  exact ⟨.ofDouble value, by rw [decimal, hvalue]⟩

theorem announced?_eq (h : IsDecimal (withoutLowLines text)) :
    announced? text = none := by
  unfold announced?
  split
  · next letter rest =>
      by_cases hlow : letter = '_'
      · subst hlow
        decide
      · have hmem : letter ∈ withoutLowLines ('0' :: letter :: rest) := by
          simp [withoutLowLines, hlow]
        exact (plain_of_isDecimalPart (h.isDecimalPart_of_mem hmem)).2.2
  · rfl

end IsDecimal

/-! ## Number tokens without low lines -/

theorem IsDigits.isRun {text : List Char} (h : IsDigits text) :
    IsRun (withoutLowLines text) := by
  obtain ⟨digits, h⟩ := h
  refine ⟨h.withoutLowLines_ne_nil (by decide), fun c hc => ?_⟩
  obtain ⟨digit, hdigit⟩ := h.mem_withoutLowLines hc
  exact hdigit.decimal.1

private theorem isExponent_of_part {text : List Char}
    (h : text = [] ∨ IsExponentPart text) :
    IsExponent (withoutLowLines text) := by
  rcases h with rfl | @⟨mark, sign, digits, hmark, hsign, hdigits⟩
  · exact .missing
  · have hlow : mark ≠ '_' := by rcases hmark with rfl | rfl <;> decide
    have hplain : withoutLowLines sign = sign := by
      rcases hsign with rfl | rfl | rfl <;> rfl
    rw [withoutLowLines_cons hlow, withoutLowLines_append, hplain]
    exact .marked hmark hsign hdigits.isRun

private theorem isDecimal_of_scaled {whole exponent : List Char}
    (hwhole : IsDigits whole)
    (hexponent : exponent = [] ∨ IsExponentPart exponent) :
    IsDecimal (withoutLowLines (whole ++ exponent)) := by
  have hrun := hwhole.isRun
  obtain ⟨c, hc⟩ := List.exists_mem_of_ne_nil _ hrun.nonempty
  refine ⟨_, [], _, ?_, hrun.inside, .inl rfl,
    ⟨c, List.mem_append_left _ hc, hrun.inside c hc⟩,
    isExponent_of_part hexponent⟩
  rw [withoutLowLines_append, List.append_nil]

private theorem isDecimal_of_pointed {whole fraction exponent : List Char}
    (hwhole : whole = [] ∨ IsDigits whole)
    (hfraction : fraction = [] ∨ IsDigits fraction)
    (hdigits : whole ≠ [] ∨ fraction ≠ [])
    (hexponent : exponent = [] ∨ IsExponentPart exponent) :
    IsDecimal (withoutLowLines (whole ++ '.' :: (fraction ++ exponent))) := by
  have hinside : ∀ {part : List Char}, part = [] ∨ IsDigits part →
      ∀ c ∈ withoutLowLines part, c.isDigit = true := by
    rintro part (rfl | hpart)
    · exact List.forall_mem_nil _
    · exact hpart.isRun.inside
  have hsome : ∃ c ∈ withoutLowLines whole ++ '.' :: withoutLowLines fraction,
      c.isDigit = true := by
    rcases hdigits with hne | hne
    · obtain ⟨c, hc⟩ :=
        List.exists_mem_of_ne_nil _ (hwhole.resolve_left hne).isRun.nonempty
      exact ⟨c, List.mem_append_left _ hc, hinside hwhole c hc⟩
    · obtain ⟨c, hc⟩ :=
        List.exists_mem_of_ne_nil _ (hfraction.resolve_left hne).isRun.nonempty
      exact ⟨c, List.mem_append_right _ (List.mem_cons_of_mem _ hc),
        hinside hfraction c hc⟩
  refine ⟨_, _, _, ?_, hinside hwhole, .inr ⟨_, rfl, hinside hfraction⟩, hsome,
    isExponent_of_part hexponent⟩
  rw [withoutLowLines_append, withoutLowLines_cons (by decide),
    withoutLowLines_append, List.append_assoc, List.cons_append]

/-! ## Values of number tokens -/

private theorem scriptNumeral_of_decimal {text : List Char}
    (h : IsDecimal (withoutLowLines text)) :
    ∃ value, scriptNumeral (String.ofList text) = .ok value := by
  rw [scriptNumeral, String.toList_ofList]
  split
  · exact ⟨none, rfl⟩
  · obtain ⟨value, hvalue⟩ := h.exists_decimal
    refine ⟨some value, ?_⟩
    rw [h.announced?_eq]
    simp only [hvalue]
    rfl

private theorem scriptNumeral_of_marked {mark : Char} {base : Nat}
    {text : List Char} {digits : List Nat} (hmark : (mark, base) ∈ baseMarks)
    (h : Spells base text digits) :
    ∃ value, scriptNumeral (String.ofList ('0' :: mark :: text)) = .ok value := by
  have hannounced : announced? ('0' :: mark :: text) = some base :=
    (baseMark_plain _ hmark).1
  rw [scriptNumeral, String.toList_ofList]
  split
  · exact ⟨none, rfl⟩
  · refine ⟨some (.whole (Nat.ofDigits base digits.reverse : Nat)), ?_⟩
    simp only [hannounced, based_of_spells hmark h]
    rfl

private theorem exists_scriptNumeral {literal : String}
    (h : IsNumeral literal.toList) :
    ∃ value, scriptNumeral literal = .ok value := by
  rw [← String.ofList_toList (s := literal)]
  generalize literal.toList = text at h
  cases h with
  | whole h =>
      cases h with
      | marked hmark h => exact scriptNumeral_of_marked hmark h
      | decimal h =>
          refine scriptNumeral_of_decimal ?_
          simpa using isDecimal_of_scaled ⟨_, h⟩ (.inl rfl)
  | big h =>
      refine ⟨none, ?_⟩
      rw [scriptNumeral, String.toList_ofList, if_pos List.getLast?_concat]
  | pointed hwhole hfraction hdigits hexponent =>
      exact scriptNumeral_of_decimal
        (isDecimal_of_pointed hwhole hfraction hdigits hexponent)
  | scaled hwhole hexponent =>
      exact scriptNumeral_of_decimal (isDecimal_of_scaled hwhole (.inr hexponent))

/-! ## Literals in calls -/

namespace Node

private theorem named_unwrapped {node : Node} (h : node.named = true) :
    node.unwrapped.named = true := by
  induction node using children_induction with
  | step node ih =>
      cases hcontent : node.content? with
      | none => rwa [unwrapped_eq_self hcontent]
      | some inner =>
          rw [unwrapped_of_content? hcontent]
          refine ih inner (content?_mem_children hcontent) ?_
          unfold content? at hcontent
          split at hcontent
          · have hoperand := (List.mem_filter.1 (List.mem_of_head? hcontent)).2
            exact (Bool.and_eq_true_iff.1 hoperand).1
          · contradiction

end Node

namespace Scan

open Node

private theorem divisorNode?_spec {call literal : Node}
    (h : divisorNode? call = some literal) :
    literal.kind = "number" ∧ ∃ dividend ∈ call.preorder,
      dividend.kind = "binary_expression" ∧
      ∃ right, dividend.child? "right" = some right ∧
        right.unwrapped = literal := by
  obtain ⟨arguments, harguments, h⟩ := Option.bind_eq_some_iff.1 h
  obtain ⟨first, hfirst, h⟩ := Option.bind_eq_some_iff.1 h
  dsimp only at h
  split at h
  · next hdivides =>
      obtain ⟨right, hright, h⟩ := Option.bind_eq_some_iff.1 h
      split at h
      · next hkind =>
          cases h
          have hchild := mem_children_of_mem_operands (List.mem_of_head? hfirst)
          have hmem : first.unwrapped ∈ call.preorder := by
            refine mem_preorder_trans (child?_mem_preorder harguments) ?_
            exact mem_preorder_of_mem_children hchild
              (unwrapped_mem_preorder first)
          have hbinary :=
            (Bool.and_eq_true_iff.1 (Bool.and_eq_true_iff.1 hdivides).1).1
          exact ⟨hkind, _, hmem, of_decide_eq_true hbinary, right, hright, rfl⟩
      · contradiction
  · contradiction

/-- In a tree whose numbers are numerals no division stops a scan. -/
theorem exists_divisor {tree : Tree} {call : Node} (numerals : tree.HasNumerals)
    (hcall : call ∈ tree.root.preorder) : ∃ value, divisor call = .ok value := by
  unfold divisor
  split
  · next literal hliteral =>
      obtain ⟨hkind, dividend, hdividend, hbinary, right, hright, rfl⟩ :=
        divisorNode?_spec hliteral
      have hmem := mem_preorder_trans hcall hdividend
      have hnamed :=
        named_unwrapped (numerals.operand dividend hmem hbinary right hright)
      refine exists_scriptNumeral (numerals.numeral _ ?_ hkind hnamed)
      refine mem_preorder_trans hmem ?_
      exact mem_preorder_trans (child?_mem_preorder hright)
        (unwrapped_mem_preorder right)
  · exact ⟨none, rfl⟩

end Scan

end SnippetGrowth
