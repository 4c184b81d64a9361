import SnippetGrowth.Profile
import SnippetGrowth.Proofs.Dominance
import SnippetGrowth.Proofs.LoweredWords
import SnippetGrowth.Proofs.Matching

/-!
# The profile of a snippet inside another

The white space that is removed around a snippet is never inside another text
that holds the snippet, so what is left of the snippet stands in what is left of
the other text.  A marker that is found stays, and the profile of the whole is
the same or an earlier one.  The markers are steady words: for them the lower
case of a snippet is that of its basic Latin letters.
-/

namespace SnippetGrowth

open Text

namespace Text

/-! ## Removed white space -/

theorem exists_dropBlanks_append {text : List Char}
    (h : ∀ c ∈ text.head?, isBlank c = false) (hne : text ≠ [])
    (front rest : List Char) :
    ∃ kept, dropBlanks (front ++ (text ++ rest)) = kept ++ (text ++ rest) := by
  induction front with
  | nil =>
      obtain ⟨c, tail, rfl⟩ := List.exists_cons_of_ne_nil hne
      exact ⟨[], List.dropWhile_cons_of_neg (by simp [h c rfl])⟩
  | cons c front ih =>
      cases hc : isBlank c with
      | true =>
          rw [List.cons_append, dropBlanks, List.dropWhile_cons_of_pos hc]
          exact ih
      | false => exact ⟨c :: front, List.dropWhile_cons_of_neg (by simp [hc])⟩

theorem isBlank_of_mem_head?_dropBlanks (text : List Char) :
    ∀ c ∈ (dropBlanks text).head?, isBlank c = false := by
  intro c hc
  have hhead := List.head?_dropWhile_not isBlank text
  rw [Option.mem_def, dropBlanks] at hc
  rwa [hc] at hhead

theorem strip_isPrefix_dropBlanks (text : List Char) :
    strip text <+: dropBlanks text := by
  have hsuffix : dropBlanks (dropBlanks text).reverse <:+
      (dropBlanks text).reverse :=
    List.dropWhile_suffix isBlank
  rw [← List.reverse_prefix, List.reverse_reverse] at hsuffix
  exact hsuffix

theorem strip_isInfix (text : List Char) : strip text <:+: text :=
  (strip_isPrefix_dropBlanks text).isInfix.trans
    (List.dropWhile_suffix isBlank).isInfix

theorem isBlank_of_mem_head?_strip (text : List Char) :
    ∀ c ∈ (strip text).head?, isBlank c = false := by
  obtain ⟨behind, hbehind⟩ := strip_isPrefix_dropBlanks text
  intro c hc
  refine isBlank_of_mem_head?_dropBlanks text c ?_
  rw [← hbehind, List.head?_append, Option.mem_def.1 hc, Option.some_or,
    Option.mem_def]

theorem isBlank_of_mem_getLast?_strip (text : List Char) :
    ∀ c ∈ (strip text).getLast?, isBlank c = false := by
  rw [strip, List.getLast?_reverse]
  exact isBlank_of_mem_head?_dropBlanks _

/-- What is left of a text stands in what is left of every text around it. -/
theorem strip_isInfix_strip {text whole : List Char} (h : text <:+: whole) :
    strip text <:+: strip whole := by
  by_cases hne : strip text = []
  · rw [hne]
    exact List.nil_infix
  obtain ⟨front, rest, rfl⟩ := (strip_isInfix text).trans h
  have hhead := isBlank_of_mem_head?_strip text
  have hlast : ∀ c ∈ (strip text).reverse.head?, isBlank c = false := by
    rw [List.head?_reverse]
    exact isBlank_of_mem_getLast?_strip text
  rw [List.append_assoc]
  obtain ⟨kept, hkept⟩ := exists_dropBlanks_append hhead hne front rest
  obtain ⟨left, hleft⟩ :=
    exists_dropBlanks_append hlast
      (by simpa using hne) rest.reverse kept.reverse
  have hreverse : (kept ++ (strip text ++ rest)).reverse =
      rest.reverse ++ ((strip text).reverse ++ kept.reverse) := by simp
  have hwhole : strip (front ++ (strip text ++ rest)) =
      (dropBlanks (dropBlanks (front ++ (strip text ++ rest))).reverse).reverse :=
        rfl
  refine ⟨kept, left.reverse, ?_⟩
  rw [hwhole, hkept, hreverse, hleft]
  simp

theorem strip_surrounded {front back : List Char}
    (hfront : ∀ c ∈ front, isBlank c = true)
    (hback : ∀ c ∈ back, isBlank c = true) (text : List Char) :
    strip (front ++ text ++ back) = strip text := by
  by_cases hnil : dropBlanks text = []
  · have hblank := dropBlanks_eq_nil_iff.1 hnil
    rw [strip_eq_nil_iff.2 hblank, strip_eq_nil_iff]
    simp only [List.mem_append]
    rintro c ((hc | hc) | hc)
    · exact hfront c hc
    · exact hblank c hc
    · exact hback c hc
  · have hbehind : dropBlanks (text ++ back) = dropBlanks text ++ back := by
      rw [dropBlanks] at hnil ⊢
      rw [List.dropWhile_append, if_neg (by simpa using hnil)]
      rfl
    have hreversed : ∀ c ∈ back.reverse, isBlank c = true := by simpa using hback
    rw [strip, List.append_assoc, Scan.dropBlanks_append_of_forall hfront,
      hbehind, List.reverse_append, Scan.dropBlanks_append_of_forall hreversed,
      strip]

end Text

namespace Profile

/-! ## Rules in order -/

def place : Profile → Nat
  | c => 0
  | python => 1
  | pascal => 2
  | javascript => 3

theorem place_injective {first second : Profile}
    (h : first.place = second.place) :
    first = second := by
  cases first <;> cases second <;> first | rfl | (simp [place] at h)

/-- The first profile one of whose markers stands in a text. -/
def ofText (text : List Char) : Profile :=
  ((markers.find? fun entry => entry.2.any
    fun word => occursIn word.toList text).map
    Prod.fst).getD javascript

theorem detect_eq (code : String) :
    detect code = ofText (normalized code.toList) := by
  unfold detect ofText
  dsimp only
  cases markers.find? fun entry =>
    entry.2.any fun word => occursIn word.toList (normalized code.toList) <;> rfl

theorem place_ofText_le {text whole : List Char}
    (h : ∀ entry ∈ markers, ∀ word ∈ entry.2,
      occursIn word.toList text = true → occursIn word.toList whole = true) :
    (ofText whole).place ≤ (ofText text).place := by
  have sorted : markers.Pairwise fun first second =>
    first.1.place ≤ second.1.place := by decide
  unfold ofText
  cases hfound : markers.find? fun entry => entry.2.any fun word =>
    occursIn word.toList text with
  | none =>
      generalize ((markers.find? _).map Prod.fst).getD javascript = profile
      cases profile <;> decide
  | some entry =>
      have hentry := List.mem_of_find?_eq_some hfound
      have hmarked :
          (entry.2.any fun word => occursIn word.toList text) = true := by
        simpa using List.find?_some hfound
      obtain ⟨word, hword, hoccurs⟩ := List.any_eq_true.1 hmarked
      have hwhole : (entry.2.any fun word => occursIn word.toList whole) = true :=
        List.any_eq_true.2 ⟨word, hword, h entry hentry word hword hoccurs⟩
      obtain ⟨earlier, hearlier, hle⟩ := exists_find?_le
        (fun entry => entry.2.any fun word => occursIn word.toList whole) sorted
          hentry hwhole
      rw [hearlier]
      exact hle

theorem ofText_congr {text other : List Char}
    (h : ∀ entry ∈ markers, ∀ word ∈ entry.2,
      occursIn word.toList text = occursIn word.toList other) :
    ofText text = ofText other := by
  refine place_injective (Nat.le_antisymm ?_ ?_)
  · exact place_ofText_le fun entry hentry word hword hoccurs => by
      rwa [h entry hentry word hword]
  · exact place_ofText_le fun entry hentry word hword hoccurs => by
      rwa [← h entry hentry word hword]

/-! ## Markers in lower case -/

private theorem isSteady_of_mem_markers : ∀ entry ∈ markers, ∀ word ∈ entry.2,
    IsSteady word.toList ∧ word.toList ≠ [] := by
  decide

private theorem detect_eq_ofText_lower (code : String) :
    detect code = ofText (lower (strip code.toList)) := by
  rw [detect_eq]
  refine ofText_congr fun entry hentry word hword => ?_
  obtain ⟨hsteady, hne⟩ := isSteady_of_mem_markers entry hentry word hword
  rw [occursIn_lower hsteady hne, normalized]

private theorem place_detect_le {code whole : String}
    (h : code.toList <:+: whole.toList) :
    (detect whole).place ≤ (detect code).place := by
  rw [detect_eq, detect_eq]
  refine place_ofText_le fun entry _ word _ hoccurs => ?_
  rw [occursIn_iff, normalized] at hoccurs ⊢
  exact hoccurs.trans ((strip_isInfix_strip h).map Char.toLower)

end Profile

/-- A snippet is assigned to the first profile with a marker in the lower case
of what is left of it without the white space around it. Other text around a
snippet leads to its profile or an earlier one, and white space around it to the
same. -/
theorem detect_surrounded (front snippet back : String) :
    Profile.detect snippet = Profile.ofText (lower (strip snippet.toList)) ∧
      (Profile.detect (front ++ snippet ++ back)).place ≤
        (Profile.detect snippet).place ∧
      ((∀ c ∈ front.toList, isBlank c = true) →
        (∀ c ∈ back.toList, isBlank c = true) →
        Profile.detect (front ++ snippet ++ back) = Profile.detect snippet) := by
  have hwhole : (front ++ snippet ++ back).toList =
      front.toList ++ snippet.toList ++ back.toList := by
        simp [String.toList_append]
  refine ⟨Profile.detect_eq_ofText_lower snippet, ?_, fun hfront hback => ?_⟩
  · refine Profile.place_detect_le ?_
    rw [hwhole]
    exact List.infix_append _ _ _
  · rw [Profile.detect_eq_ofText_lower, Profile.detect_eq_ofText_lower, hwhole,
      strip_surrounded hfront hback]

theorem detect_surrounded_definition :
    Profile.detect "def " = .javascript ∧ Profile.detect "def f" = .python ∧
      Profile.detect "\n\tİMPORT; END; \u2003" =
        Profile.detect "İMPORT; END;" := by
  obtain ⟨-, -, hblank⟩ := detect_surrounded "\n\t" "İMPORT; END;" " \u2003"
  have hfront : "\n\t".toList.all isBlank = true := by decide
  have hback : " \u2003".toList.all isBlank = true := by decide
  refine ⟨by decide +kernel, by decide +kernel, ?_⟩
  exact hblank (List.all_eq_true.1 hfront) (List.all_eq_true.1 hback)

end SnippetGrowth
