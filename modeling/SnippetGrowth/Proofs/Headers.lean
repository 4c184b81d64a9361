import SnippetGrowth.Proofs.Recognisers

/-!
# Loop headers

A header is a keyword, blanks, and a text in parentheses that is not empty and
ends at the first closing one.  Whether a header starts at a position is
decided by the text up to that parenthesis, so what is found in a text is also
found, in the same order and before anything else, once text is appended.
-/

namespace SnippetGrowth.Scan

open Text

/-! ## Searches that appended text leaves alone -/

/-- Whether text behind the place of a find cannot change it, and a find that
needs such text is the first one. -/
structure IsStable {α : Type} (recognise : Recogniser α) : Prop where
  found : ∀ {previous : Option Char} {text after : List Char} {find : α}
    (more : List Char),
    recognise previous text = some (find, after) →
      recognise previous (text ++ more) = some (find, after ++ more)
  missed : ∀ {previous : Option Char} {text more : List Char},
    recognise previous text = none → recognise previous (text ++ more) ≠ none →
      ∀ later, later <:+ text → ∀ previous, recognise previous later = none

theorem matchesFrom_eq_nil {α : Type} {recognise : Recogniser α}
    {text : List Char}
    (h : ∀ later, later <:+ text → ∀ previous, recognise previous later = none)
    (previous : Option Char) (skip : Nat) :
    matchesFrom recognise previous skip text = [] := by
  induction text generalizing previous skip with
  | nil => simp [matchesFrom]
  | cons c rest ih =>
      have hrest := ih fun later hlater =>
        h later (hlater.trans (List.suffix_cons c rest))
      cases skip with
      | zero =>
          rw [matchesFrom, h _ List.suffix_rfl]
          exact hrest _ _
      | succ skip => exact hrest _ _

theorem matchesFrom_eq_nil_of_absent {α : Type} {recognise : Recogniser α}
    {marker : List Char}
    (starts : ∀ {previous : Option Char} {text : List Char}
      {find : α × List Char}, recognise previous text = some find →
        marker <+: text)
    {text : List Char} (h : occursIn marker text = false)
    (previous : Option Char) :
    matchesFrom recognise previous 0 text = [] := by
  refine matchesFrom_eq_nil (fun later hlater previous => ?_) previous 0
  rw [Option.eq_none_iff_forall_ne_some]
  intro find hfound
  rw [occursIn_iff.2 ((starts hfound).isInfix.trans hlater.isInfix)] at h
  contradiction

theorem IsStable.matchesFrom_isPrefix {α : Type} {recognise : Recogniser α}
    (stable : IsStable recognise) (previous : Option Char) (skip : Nat)
    (text more : List Char) :
    matchesFrom recognise previous skip text <+:
      matchesFrom recognise previous skip (text ++ more) := by
  fun_induction matchesFrom recognise previous skip text with
  | case1 => exact List.nil_prefix
  | case2 previous skip c rest ih => exact ih
  | case3 previous c rest find after hfind ih =>
      have hmore := stable.found more hfind
      have hskip : (rest ++ more).length - (after ++ more).length =
          rest.length - after.length := by
        simp only [List.length_append]
        omega
      rw [List.cons_append] at hmore ⊢
      rw [matchesFrom, hmore]
      simpa only [hskip, List.prefix_cons_inj] using ih
  | case4 previous c rest hmissed ih =>
      cases hmore : recognise previous (c :: (rest ++ more)) with
      | none =>
          rw [List.cons_append, matchesFrom_missed hmore]
          exact ih
      | some find =>
          have hneeds : recognise previous (c :: rest ++ more) ≠ none := by
            simp [hmore]
          have hlater := stable.missed hmissed hneeds
          rw [matchesFrom_eq_nil fun later hsuffix =>
            hlater later (hsuffix.trans (List.suffix_cons c rest))]
          exact List.nil_prefix

/-! ## Headers -/

theorem closing_mem_of_isHeader {keyword header : List Char}
    (h : IsHeader keyword header) :
    ')' ∈ header := by
  obtain ⟨blanks, inside, -, -, -, rfl⟩ := h
  simp

private theorem closing_not_mem_of_isPrefix {keyword header front : List Char}
    (h : IsHeader keyword header)
    (hkeyword : ')' ∉ keyword) (hfront : front <+: header)
    (proper : front ≠ header) :
    ')' ∉ front := by
  obtain ⟨blanks, inside, hblanks, -, hinside, rfl⟩ := h
  have hblank : ')' ∉ blanks := fun hmem => absurd (hblanks _ hmem) (by decide)
  have hlast : keyword ++ (blanks ++ '(' :: (inside ++ [')'])) =
      (keyword ++ (blanks ++ '(' :: inside)) ++ [')'] := by simp
  rw [hlast, List.prefix_concat_iff] at hfront
  rcases hfront with hfront | hfront
  · exact absurd (hfront.trans hlast.symm) proper
  · intro hmem
    have hwhole := hfront.subset hmem
    simp [hkeyword, hblank, hinside] at hwhole

private theorem isStable_header? {keyword : String}
    (hkeyword : ')' ∉ keyword.toList) :
    IsStable (header? keyword) where
  found := by
    intro previous text after header more h
    obtain ⟨hheader, rfl⟩ := header?_eq_some_iff.1 h
    exact header?_eq_some_iff.2 ⟨hheader, List.append_assoc _ _ _⟩
  missed := by
    intro previous text more hmissed hmore later hlater previous
    obtain ⟨⟨header, after⟩, hmore⟩ := Option.ne_none_iff_exists'.1 hmore
    obtain ⟨hheader, htext⟩ := header?_eq_some_iff.1 hmore
    have hfound : ∀ rest, text ≠ header ++ rest := by
      rintro rest rfl
      rw [header?_eq_some_iff.2 ⟨hheader, rfl⟩] at hmissed
      contradiction
    have hfront : text <+: header ∧ text ≠ header := by
      rcases List.append_eq_append_iff.1 htext with
        ⟨rest, hrest, -⟩ | ⟨rest, hrest, -⟩
      · exact ⟨⟨rest, hrest.symm⟩, fun heq => hfound [] (by simpa using heq)⟩
      · exact absurd hrest (hfound rest)
    have habsent := closing_not_mem_of_isPrefix hheader hkeyword hfront.1 hfront.2
    rw [Option.eq_none_iff_forall_ne_some]
    rintro ⟨other, rest⟩ hother
    obtain ⟨hisHeader, rfl⟩ := header?_eq_some_iff.1 hother
    exact habsent
      (hlater.subset
        (List.mem_append_left _ (closing_mem_of_isHeader hisHeader)))

theorem headers_isPrefix {keyword : String} (hkeyword : ')' ∉ keyword.toList)
    (code more : List Char) :
    headers keyword code <+: headers keyword (code ++ more) :=
  (isStable_header? hkeyword).matchesFrom_isPrefix none 0 code more

end SnippetGrowth.Scan
