import SnippetGrowth.Proofs.Representable
import SnippetGrowth.Proofs.Sampling

/-!
# The points of a curve

A curve has one value for each size, in the order of the sizes, and a value
depends on its own size only.  Curves can therefore be joined, and thinned out
to any of their points.  Whatever the function, a value that is not left out is
a finite number in the format of doubles.
-/

namespace SnippetGrowth

namespace GrowthFunction

/-! ## Values in the format of doubles -/

private theorem isRepresentable_sizePower {n : Nat} {exponent x : Double}
    (h : sizePower n exponent = .ok x) : x.IsRepresentable := by
  dsimp only [sizePower] at h
  split_ifs at h with hzero hrounded
  · cases h
    exact Double.isRepresentable_one
  · split at h
    · cases h
      trivial
    · contradiction
    · cases h
      exact Double.isRepresentable_signedZero false
  · cases h
    exact Double.isRepresentable_powNat hrounded exponent

private theorem isRepresentable_sizeValue? {n : Nat} {x : Double}
    (h : sizeValue? n = some x) :
    x.IsRepresentable := by
  rw [← (sizeValue?_eq_some_iff.1 h).2]
  exact Double.isRepresentable_ofNat n

private theorem isRepresentable_powerValue {n : Nat} {exponent x : Double}
    (h : rawValue.powerValue n exponent = .ok (some x)) : x.IsRepresentable := by
  unfold rawValue.powerValue at h
  split at h
  · obtain ⟨y, hpower, hy⟩ := map_eq_ok_iff.1 h
    cases hy
    exact isRepresentable_sizePower hpower
  · cases h

theorem isRepresentable_logNat (n : Nat) :
    (Double.logNat Double.log2 n).IsRepresentable :=
  Double.isRepresentable_logNat Double.isRepresentable_log2 n

private theorem isRepresentable_rawValue {f : GrowthFunction} {n : Nat}
    {x : Double} (h : f.rawValue n = .ok (some x)) : x.IsRepresentable := by
  cases f with
  | factorial =>
      rw [rawValue] at h
      split at h
      · obtain ⟨text, -, hnone⟩ := map_eq_ok_iff.1 h
        cases hnone
      · cases h
        exact Double.isRepresentable_ofNat _
  | cube | square | power => exact isRepresentable_powerValue h
  | linearithmic =>
      rw [rawValue] at h
      split at h
      · cases h
        exact Double.isRepresentable_signedZero false
      · obtain ⟨size, -, hproduct⟩ := Option.map_eq_some_iff.1 (Except.ok.inj h)
        rw [← hproduct]
        exact Double.isRepresentable_mul _ _
  | logarithm =>
      rw [rawValue] at h
      cases h
      split
      · trivial
      · exact isRepresentable_logNat n
  | identity => exact isRepresentable_sizeValue? (Except.ok.inj h)
  | one =>
      cases h
      exact Double.isRepresentable_one

theorem isFinite_of_value {f : GrowthFunction} {n : Nat} {x : Double}
    (h : f.value n = .ok (some x)) : x.isFinite = true ∧ x.IsRepresentable := by
  obtain ⟨raw, hraw, hfilter⟩ := map_eq_ok_iff.1 h
  obtain ⟨rfl, hfinite⟩ := Option.filter_eq_some_iff.1 hfilter
  exact ⟨hfinite, isRepresentable_rawValue hraw⟩

end GrowthFunction

namespace Curve

/-! ## Points -/

def points (c : Curve) : List (Int × Option Double) := c.sizes.zip c.values

/-- Whether a value is what the function of a label has at a size. -/
def Plots (label : String) (n : Int) (value : Option Double) : Prop :=
  0 ≤ n ∧ (GrowthFunction.ofLabel label).value n.toNat = .ok value

variable {label : String} {sizes : List Int} {curve : Curve}

theorem sample_eq_ok_iff : sample label sizes = .ok curve ↔
    curve.label = label ∧ curve.sizes = sizes ∧
      List.Forall₂ (Plots label) sizes curve.values := by
  have hplots : ∀ values, List.Forall₂ (Plots label) sizes values ↔
      (∀ n ∈ sizes, 0 ≤ n) ∧ List.Forall₂
        (fun n value => (GrowthFunction.ofLabel label).value n.toNat = .ok value)
            sizes values :=
    fun values => List.forall₂_and_left sizes values
  rw [hplots, ← mapM_eq_ok_iff, sample]
  split
  · next hnegative =>
      refine iff_of_false (by simp) ?_
      rintro ⟨-, -, hnonneg, -⟩
      obtain ⟨n, hn, hlt⟩ := List.any_eq_true.1 hnegative
      have hn' := hnonneg n hn
      simp only [decide_eq_true_eq] at hlt
      omega
  · next hnegative =>
      have hnonneg : ∀ n ∈ sizes, 0 ≤ n := by simpa using hnegative
      rw [bind_eq_ok_iff]
      constructor
      · rintro ⟨values, hvalues, hcurve⟩
        cases hcurve
        exact ⟨rfl, rfl, hnonneg, hvalues⟩
      · rintro ⟨rfl, rfl, -, hvalues⟩
        exact ⟨curve.values, hvalues, rfl⟩

theorem isFinite_of_plots {values : List (Option Double)}
    (h : List.Forall₂ (Plots label) sizes values) {x : Double}
    (hx : some x ∈ values) :
    x.isFinite = true ∧ x.IsRepresentable := by
  induction h with
  | nil => simp at hx
  | cons first _ ih =>
      rcases List.mem_cons.1 hx with rfl | hrest
      · exact GrowthFunction.isFinite_of_value first.2
      · exact ih hrest

private theorem sample_append_iff {front back : List Int} :
    sample label (front ++ back) = .ok curve ↔
      ∃ frontValues backValues,
        sample label front = .ok ⟨label, front, frontValues⟩ ∧
        sample label back = .ok ⟨label, back, backValues⟩ ∧
        curve = ⟨label, front ++ back, frontValues ++ backValues⟩ := by
  simp only [sample_eq_ok_iff, true_and]
  constructor
  · rintro ⟨rfl, hsizes, hvalues⟩
    have hfront := List.forall₂_take front.length hvalues
    have hback := List.forall₂_drop front.length hvalues
    rw [List.take_left] at hfront
    rw [List.drop_left] at hback
    refine ⟨_, _, hfront, hback, ?_⟩
    rw [List.take_append_drop, ← hsizes]
  · rintro ⟨frontValues, backValues, hfront, hback, rfl⟩
    exact ⟨rfl, rfl, List.rel_append hfront hback⟩

private theorem sample_of_sublist {kept : List (Int × Option Double)}
    (returned : sample label sizes = .ok curve) (h : kept.Sublist curve.points) :
    sample label (kept.map Prod.fst) =
      .ok ⟨label, kept.map Prod.fst, kept.map Prod.snd⟩ := by
  obtain ⟨-, hsizes, hvalues⟩ := sample_eq_ok_iff.1 returned
  rw [← hsizes] at hvalues
  refine sample_eq_ok_iff.2 ⟨rfl, rfl, ?_⟩
  rw [List.forall₂_map_left_iff, List.forall₂_map_right_iff, List.forall₂_same]
  intro point hpoint
  exact List.forall₂_zip hvalues (h.subset hpoint)

private theorem exists_points_of_sublist {fewer : List Int}
    (hlength : curve.values.length = sizes.length) (hsizes : curve.sizes = sizes)
    (h : fewer.Sublist sizes) :
    ∃ kept : List (Int × Option Double),
      kept.Sublist curve.points ∧ kept.map Prod.fst = fewer := by
  have hfirst : curve.points.map Prod.fst = sizes := by
    rw [points, hsizes]
    exact List.map_fst_zip hlength.ge
  rw [← hfirst] at h
  obtain ⟨kept, hkept, rfl⟩ := List.sublist_map_iff.1 h
  exact ⟨kept, hkept, rfl⟩

end Curve

open Curve

/--
A sampled curve echoes its label and its sizes and has one value for each of
them, which is left out or a finite double.  It is cut and joined as its sizes
are.  Any sublist of the sizes is that of some of the points, and its curve has
the values of these points.
-/
theorem sample_pointwise (label : String) (sizes : List Int) (curve : Curve)
    (returned : Curve.sample label sizes = .ok curve) :
    curve.label = label ∧ curve.sizes = sizes ∧
    curve.values.length = sizes.length ∧
    (∀ value ∈ curve.values,
      value = none ∨ ∃ x, value = some x ∧ x.isFinite = true ∧
        x.IsRepresentable) ∧
    (∀ front back, sizes = front ++ back → ∃ frontValues backValues,
      Curve.sample label front = .ok ⟨label, front, frontValues⟩ ∧
      Curve.sample label back = .ok ⟨label, back, backValues⟩ ∧
      curve.values = frontValues ++ backValues) ∧
    (∀ more moreValues, Curve.sample label more = .ok ⟨label, more, moreValues⟩ →
      Curve.sample label (sizes ++ more) =
        .ok ⟨label, sizes ++ more, curve.values ++ moreValues⟩) ∧
    (∀ fewer, fewer.Sublist sizes →
      (∃ kept : List (Int × Option Double),
        kept.Sublist curve.points ∧ kept.map Prod.fst = fewer) ∧
      ∀ kept : List (Int × Option Double), kept.Sublist curve.points →
        kept.map Prod.fst = fewer →
        Curve.sample label fewer = .ok ⟨label, fewer, kept.map Prod.snd⟩) := by
  obtain ⟨hlabel, hsizes, hvalues⟩ := sample_eq_ok_iff.1 returned
  refine ⟨hlabel, hsizes, hvalues.length_eq.symm, ?_, ?_, ?_, ?_⟩
  · intro value hvalue
    cases value with
    | none => exact .inl rfl
    | some x => exact .inr ⟨x, rfl, isFinite_of_plots hvalues hvalue⟩
  · rintro front back rfl
    obtain ⟨frontValues, backValues, hfront, hback, rfl⟩ :=
      sample_append_iff.1 returned
    exact ⟨frontValues, backValues, hfront, hback, rfl⟩
  · intro more moreValues hmore
    refine sample_append_iff.2 ⟨curve.values, moreValues, ?_, hmore, rfl⟩
    rw [returned, ← hlabel, ← hsizes]
  · intro fewer hfewer
    refine ⟨exists_points_of_sublist hvalues.length_eq.symm hsizes hfewer, ?_⟩
    rintro kept hkept rfl
    exact sample_of_sublist returned hkept

def factorialCurve : Curve where
  label := "n!"
  sizes := [170, 171, 3]
  values :=
    [some (.ofNat (GrowthFunction.factorialOf 170)), none, some (.ofNat 6)]

theorem sample_pointwise_factorialCurve :
    Curve.sample "n!" [170, 171, 3] = .ok factorialCurve ∧
      factorialCurve.values.length = 3 ∧
      Curve.sample "n!" [170, 3] = .ok ⟨"n!", [170, 3],
        [some (.ofNat (GrowthFunction.factorialOf 170)), some (.ofNat 6)]⟩ := by
  have returned : Curve.sample "n!" [170, 171, 3] = .ok factorialCurve := by
    decide +kernel
  obtain ⟨-, -, hlength, -, -, -, hfewer⟩ :=
    sample_pointwise "n!" [170, 171, 3] factorialCurve returned
  have hsublist : [(170 : Int), 3].Sublist [170, 171, 3] := by decide
  refine ⟨returned, hlength, (hfewer _ hsublist).2
    [(170, some (.ofNat (GrowthFunction.factorialOf 170))),
      (3, some (.ofNat 6))] ?_ rfl⟩
  exact .cons_cons _ (.cons _ (.cons_cons _ .slnil))

end SnippetGrowth
