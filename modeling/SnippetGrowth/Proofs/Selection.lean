import Mathlib.Data.List.Find
import Mathlib.Tactic.SplitIfs
import SnippetGrowth.Curve
import SnippetGrowth.Proofs.Dominance
import SnippetGrowth.Proofs.Matching

/-!
# Growth functions and growth classes

A label selects the function of its curve, and ranks in a growth class, by the
parts that stand in it.  Each goes through a table of its own, the most
dominant part first.  The tables differ in the powers with a caret, which only
the functions know, and in the logarithm, which ranks linear.  Otherwise the
function is one of the class, and a notation around the label changes neither.
-/

namespace SnippetGrowth

open Text Scan

/-! ## Searches -/

theorem occursIn_enclosed {opening marker heads : List Char}
    (hhead : marker.head? ∈ heads.map some)
    (hheads : ∀ mark ∈ heads, mark ∉ opening)
    (hclosing : ')' ∉ marker) (text : List Char) :
    occursIn marker (opening ++ text ++ [')']) = occursIn marker text := by
  obtain ⟨mark, hmark, hhead⟩ := List.mem_map.1 hhead
  obtain ⟨rest, rfl⟩ := List.head?_eq_some_iff.1 hhead.symm
  rw [occursIn_concat (List.cons_ne_nil mark rest) hclosing,
    occursIn_append_of_not_mem (hheads mark hmark)]

theorem occursIn_of_isInfix {marker longer text : List Char}
    (h : marker <:+: longer) (hlonger : occursIn longer text = true) :
    occursIn marker text = true :=
  occursIn_iff.2 (h.trans (occursIn_iff.1 hlonger))

namespace GrowthFunction

/-! ## Exponents in front of a further character -/

theorem concat_ne_cons {mark c : Char} (h : c ≠ mark) {text : List Char}
    (other : ∀ rest, text ≠ mark :: rest) :
    ∀ rest, text ++ [c] ≠ mark :: rest := by
  cases text with
  | nil => simp [h]
  | cons d text =>
      intro rest heq
      obtain ⟨rfl, -⟩ := List.cons.inj heq
      exact other text rfl

variable {c : Char}

private theorem decimalPlaces_concat (hdigit : isDigit c = false)
    (hpoint : c ≠ '.') (text : List Char) :
    decimalPlaces (text ++ [c]) = decimalPlaces text := by
  fun_cases decimalPlaces text with
  | case1 fraction =>
      simp only [List.cons_append, decimalPlaces, run?_concat hdigit,
        Option.map_map]
      rfl
  | case2 text other =>
      rw [decimalPlaces]
      exact concat_ne_cons hpoint other

private theorem unsignedNumeral?_concat (hdigit : isDigit c = false)
    (hpoint : c ≠ '.') (text : List Char) :
    unsignedNumeral? (text ++ [c]) = unsignedNumeral? text := by
  simp [unsignedNumeral?, run?_concat hdigit, decimalPlaces_concat hdigit hpoint,
    Function.comp_def]

private theorem exponentNumeral?_concat (hdigit : isDigit c = false)
    (hpoint : c ≠ '.') (hminus : c ≠ '-') (text : List Char) :
    exponentNumeral? (text ++ [c]) = exponentNumeral? text := by
  fun_cases exponentNumeral? text with
  | case1 magnitude =>
      rw [List.cons_append, exponentNumeral?,
        unsignedNumeral?_concat hdigit hpoint]
  | case2 text other =>
      rw [exponentNumeral?, unsignedNumeral?_concat hdigit hpoint]
      exact concat_ne_cons hminus other

theorem firstExponent?_concat (hdigit : isDigit c = false)
    (hcaret : c ∉ ['n', '^']) (hpoint : c ≠ '.') (hminus : c ≠ '-')
    (text : List Char) :
    firstExponent? (text ++ [c]) = firstExponent? text := by
  induction text with
  | nil =>
      have hafter : after? ['n', '^'] [c] = none := by
        rw [← List.nil_append [c], after?_concat hcaret]
        rfl
      simp [firstExponent?, hafter]
  | cons d text ih =>
      have hafter := after?_concat hcaret (d :: text)
      rw [List.cons_append] at hafter ⊢
      simp only [firstExponent?, hafter, ih, Option.bind_map, Function.comp_def,
        exponentNumeral?_concat hdigit hpoint hminus]

theorem firstExponent?_append_of_not_mem {front : List Char} (h : 'n' ∉ front)
    (text : List Char) :
    firstExponent? (front ++ text) = firstExponent? text := by
  induction front with
  | nil => rfl
  | cons d front ih =>
      rw [List.mem_cons, not_or] at h
      simp [firstExponent?, after?, h.1, ih h.2]

theorem firstExponent?_eq_none {text : List Char}
    (h : occursIn ['n', '^'] text = false) :
    firstExponent? text = none := by
  induction text with
  | nil => rfl
  | cons d text ih =>
      simp only [occursIn, isPrefixOf_eq, Bool.or_eq_false_iff,
        Option.isSome_eq_false_iff, Option.isNone_iff_eq_none] at h
      simp [firstExponent?, h.1, ih h.2]

/-! ## Labels in a notation -/

def parts : List String :=
  ["n!", "n³", "n^3", "n²", "n^2", "n log n", "log n", "n"]

private theorem ofLabel_congr {first second : String}
    (hparts : ∀ part ∈ parts,
      occursIn part.toList first.toList = occursIn part.toList second.toList)
    (hexponent : firstExponent? first.toList = firstExponent? second.toList) :
    ofLabel first = ofLabel second := by
  simp only [parts, List.forall_mem_cons] at hparts
  simp only [ofLabel, hparts, hexponent]

theorem ofLabel_enclosed {opening : String}
    (hopening : ∀ mark ∈ ['n', 'l'], mark ∉ opening.toList) (label : String) :
    ofLabel (opening ++ label ++ ")") = ofLabel label := by
  have htext : (opening ++ label ++ ")").toList = opening.toList ++
      label.toList ++ [')'] := by
    simp [String.toList_append]
  have hshape : ∀ part ∈ parts,
      part.toList.head? ∈ ['n', 'l'].map some ∧ ')' ∉ part.toList := by decide
  refine ofLabel_congr (fun part hpart => ?_) ?_
  · obtain ⟨hhead, hclosing⟩ := hshape part hpart
    rw [htext, occursIn_enclosed hhead hopening hclosing]
  · rw [htext, firstExponent?_concat (by decide) (by decide) (by decide)
      (by decide),
      firstExponent?_append_of_not_mem (hopening 'n' List.mem_cons_self)]

end GrowthFunction

theorem GrowthClass.ofText_congr {first second : String}
    (h : ∀ entry ∈ markers,
      occursIn entry.2.toList first.toList =
        occursIn entry.2.toList second.toList) :
    ofText first = ofText second := by
  rw [ofText, ofText, List.find?_congr h]

theorem Bound.occursIn_upperBound_ofLabel {entry : GrowthClass × String}
    (h : entry ∈ GrowthClass.markers) (label : String) :
    occursIn entry.2.toList (ofLabel label).upperBound.toList =
      occursIn entry.2.toList label.toList := by
  have htext : (ofLabel label).upperBound.toList =
      "O(".toList ++ label.toList ++ [')'] := by
    simp [ofLabel, String.toList_append]
  have hshape : ∀ entry ∈ GrowthClass.markers,
      entry.2.toList.head? ∈ ['n', 'l', '1'].map some ∧ ')' ∉ entry.2.toList := by
        decide
  obtain ⟨hhead, hclosing⟩ := hshape entry h
  rw [htext, occursIn_enclosed hhead (by simp) hclosing]

theorem Bound.growthClass_ofLabel (label : String) :
    (ofLabel label).growthClass = .ofText label :=
  GrowthClass.ofText_congr fun _ hentry =>
    occursIn_upperBound_ofLabel hentry label

/-! ## The most and the least dominant parts -/

theorem GrowthFunction.ofLabel_eq_factorial_iff {label : String} :
    ofLabel label = factorial ↔ occursIn "n!".toList label.toList = true := by
  by_cases hfactorial : occursIn "n!".toList label.toList = true
  · simp only [ofLabel, hfactorial, if_true]
  · refine iff_of_false ?_ hfactorial
    simp only [ofLabel, if_neg hfactorial]
    cases (firstExponent? label.toList).bind Numeral.decimal? <;>
      split_ifs <;> simp

theorem GrowthClass.ofText_eq_factorial_iff {text : String} :
    ofText text = factorial ↔ occursIn "n!".toList text.toList = true := by
  constructor
  · intro h
    have honly : ∀ entry ∈ markers, entry.1 = factorial → entry.2 = "n!" := by
      decide
    rcases ofText_eq_unranked_or_marked text with
      hnone | ⟨entry, hentry, hclass, occurs⟩
    · rw [h] at hnone
      contradiction
    · rwa [honly entry hentry (hclass.symm.trans h)] at occurs
  · intro occurs
    have hmarker : (factorial, "n!") ∈ markers := by decide
    have hrank := rank_ofText_le hmarker occurs
    exact rank_injective (Nat.le_zero.1 hrank)

theorem GrowthFunction.ofLabel_eq_one_iff {label : String} :
    ofLabel label = one ↔ 'n' ∉ label.toList := by
  constructor
  · intro h hmem
    have hn : occursIn "n".toList label.toList = true :=
      occursIn_singleton_iff.2 hmem
    simp only [ofLabel, hn, if_true] at h
    cases hexponent : (firstExponent? label.toList).bind Numeral.decimal? <;>
      simp only [hexponent] at h <;> split_ifs at h
  · intro habsent
    have hn : ∀ part ∈ parts, 'n' ∈ part.toList := by decide
    have hparts : ∀ part ∈ parts, occursIn part.toList label.toList = false :=
      fun part hpart => occursIn_eq_false_of_mem (hn part hpart) habsent
    have hcaret : occursIn ['n', '^'] label.toList = false :=
      occursIn_eq_false_of_mem (c := 'n') (by decide) habsent
    simp only [parts, List.forall_mem_cons] at hparts
    simp only [ofLabel, hparts, firstExponent?_eq_none hcaret, Bool.or_self,
      Bool.false_eq_true, if_false, Option.bind_none]

theorem GrowthClass.ofText_eq_constant_or_unranked_iff {text : String} :
    ofText text = constant ∨ ofText text = unranked ↔ 'n' ∉ text.toList := by
  constructor
  · intro h hmem
    have hmarker : (linear, "n") ∈ markers := by decide
    have hlinear := rank_ofText_le hmarker (occursIn_singleton_iff.2 hmem)
    rcases h with h | h <;> simp [h, rank] at hlinear
  · intro habsent
    have hn : ∀ entry ∈ markers, entry.1 = constant ∨ 'n' ∈ entry.2.toList := by
      decide
    rcases ofText_eq_unranked_or_marked text with
      hnone | ⟨entry, hentry, hclass, occurs⟩
    · exact .inr hnone
    · rcases hn entry hentry with hconstant | hmem
      · exact .inl (hclass.trans hconstant)
      · exact absurd ((occursIn_iff.1 occurs).subset hmem) habsent

/-! ## Labels without a caret -/

namespace GrowthClass

theorem ofText_eq (text : String) :
    ofText text =
      (markers.find? fun entry => occursIn entry.2.toList text.toList).elim
        unranked Prod.fst := by
  unfold ofText
  cases markers.find? fun entry => occursIn entry.2.toList text.toList <;> rfl

theorem elim_find?_cons (holds : GrowthClass × String → Bool)
    (entry : GrowthClass × String) (rest : List (GrowthClass × String)) :
    ((entry :: rest).find? holds).elim unranked Prod.fst =
      if holds entry then entry.1
        else (rest.find? holds).elim unranked Prod.fst := by
  rw [List.find?_cons]
  cases holds entry <;> rfl

end GrowthClass

/-- How the selected function and the growth class of a label without a caret go
together. -/
inductive Plots (label : String) : GrowthFunction → GrowthClass → Prop
  | factorial : Plots label .factorial .factorial
  | cube : Plots label .cube .cubic
  | square : Plots label .square .quadratic
  | linearithmic : Plots label .linearithmic .linearithmic
  | logarithm (h : occursIn "log n".toList label.toList = true) :
      Plots label .logarithm .linear
  | identity (h : occursIn "log n".toList label.toList ≠ true) :
      Plots label .identity .linear
  | constant : Plots label .one .constant
  | unranked : Plots label .one .unranked

namespace Plots

variable {label : String} {selected : GrowthFunction} {growth : GrowthClass}

theorem cubic_iff (h : Plots label selected growth) :
    growth = .cubic ↔ selected = .cube := by
  cases h <;> simp

theorem quadratic_iff (h : Plots label selected growth) :
    growth = .quadratic ↔ selected = .square := by
  cases h <;> simp

theorem linearithmic_iff (h : Plots label selected growth) :
    growth = .linearithmic ↔ selected = .linearithmic := by
  cases h <;> simp

private theorem linear_iff (h : Plots label selected growth) :
    growth = .linear ↔ selected = .identity ∨ selected = .logarithm := by
  cases h <;> simp

theorem logarithm_iff (h : Plots label selected growth)
    (linear : growth = .linear) :
    selected = .logarithm ↔ occursIn "log n".toList label.toList = true := by
  cases h with
  | logarithm hlog => exact iff_of_true rfl hlog
  | identity hlog => exact iff_of_false (by simp) hlog
  | _ => contradiction

end Plots

private theorem plots_of_plain {label : String}
    (plain : occursIn "n^".toList label.toList = false) :
    Plots label (.ofLabel label) (.ofText label) := by
  have hexponent := GrowthFunction.firstExponent?_eq_none plain
  have hpower : ∀ power : String, "n^".toList <:+: power.toList →
      occursIn power.toList label.toList = false := by
    intro power hinside
    rw [Bool.eq_false_iff]
    intro h
    rw [occursIn_of_isInfix hinside h] at plain
    contradiction
  have hcaretSquare : occursIn "n^2".toList label.toList = false :=
    hpower _ (by decide)
  have hcaretCube : occursIn "n^3".toList label.toList = false :=
    hpower _ (by decide)
  have hlog : occursIn "log n".toList label.toList = true →
      occursIn "n".toList label.toList = true := occursIn_of_isInfix (by decide)
  simp only [GrowthFunction.ofLabel, GrowthClass.ofText_eq, GrowthClass.markers,
    GrowthClass.elim_find?_cons, List.find?_nil, Option.elim_none, hexponent,
    hcaretSquare,
    hcaretCube, Bool.or_false, Option.bind_none]
  split_ifs with hfactorial hcube hsquare hlinearithmic hlogarithm hn hn hone
  · exact .factorial
  · exact .cube
  · exact .square
  · exact .linearithmic
  · exact .logarithm hlogarithm
  · exact absurd (hlog hlogarithm) hn
  · exact .identity hlogarithm
  · exact .constant
  · exact .unranked

/--
A label selects one function with or without a notation around it.  It is the
factorial exactly for labels that rank as such, and the constant exactly for
those that rank as constant or not at all.  Where no caret follows an `n`, the
other functions are those of their classes as well, and of a label that ranks
linear the logarithm is plotted exactly if it holds one.
-/
theorem ofLabel_agrees_with_growthClass (label : String) :
    let selected := GrowthFunction.ofLabel label
    let growth := (Bound.ofLabel label).growthClass
    (GrowthFunction.ofLabel ("O(" ++ label ++ ")") = selected ∧
      GrowthFunction.ofLabel ("Θ(" ++ label ++ ")") = selected ∧
      GrowthFunction.ofLabel ("o(" ++ label ++ ")") = selected) ∧
    (growth = .factorial ↔ selected = .factorial) ∧
    (growth = .constant ∨ growth = .unranked ↔ selected = .one) ∧
    (occursIn "n^".toList label.toList = false →
      (growth = .cubic ↔ selected = .cube) ∧
      (growth = .quadratic ↔ selected = .square) ∧
      (growth = .linearithmic ↔ selected = .linearithmic) ∧
      (growth = .linear ↔ selected = .identity ∨ selected = .logarithm) ∧
      (growth = .linear →
        (selected = .logarithm ↔
            occursIn "log n".toList label.toList = true))) := by
  intro selected growth
  have hgrowth : growth = .ofText label := Bound.growthClass_ofLabel label
  refine ⟨⟨?_, ?_, ?_⟩, ?_, ?_, ?_⟩
  · exact GrowthFunction.ofLabel_enclosed (by simp) label
  · exact GrowthFunction.ofLabel_enclosed (by simp) label
  · exact GrowthFunction.ofLabel_enclosed (by simp) label
  · rw [hgrowth, GrowthClass.ofText_eq_factorial_iff,
      GrowthFunction.ofLabel_eq_factorial_iff]
  · rw [hgrowth, GrowthClass.ofText_eq_constant_or_unranked_iff,
      GrowthFunction.ofLabel_eq_one_iff]
  · intro plain
    have hplots : Plots label selected growth := hgrowth ▸ plots_of_plain plain
    exact ⟨hplots.cubic_iff, hplots.quadratic_iff, hplots.linearithmic_iff,
      hplots.linear_iff, hplots.logarithm_iff⟩

theorem ofLabel_agrees_with_growthClass_scaledLogarithm :
    occursIn "n^".toList "2 log n".toList = false ∧
      (Bound.ofLabel "2 log n").growthClass = .linear ∧
      GrowthFunction.ofLabel "2 log n" = .logarithm := by
  have plain : occursIn "n^".toList "2 log n".toList = false := by decide
  have hlinear : (Bound.ofLabel "2 log n").growthClass = .linear := by decide
  have hlog : occursIn "log n".toList "2 log n".toList = true := by decide
  obtain ⟨-, -, -, agrees⟩ := ofLabel_agrees_with_growthClass "2 log n"
  obtain ⟨-, -, -, -, hlogarithm⟩ := agrees plain
  exact ⟨plain, hlinear, (hlogarithm hlinear).2 hlog⟩

end SnippetGrowth
