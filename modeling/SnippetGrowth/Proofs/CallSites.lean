import SnippetGrowth.Proofs.Outcome
import SnippetGrowth.Proofs.Respelled

/-!
# Call sites in texts spelled anew

A recurrence is inferred from a name and a text.  Spelling both anew changes
neither which call sites there are nor the divisors that they end in, so the
recurrence stays the same.
-/

namespace SnippetGrowth

open Text Scan

/-- Whether a style of calls finds its markers in texts spelled anew. If the
spelling changes the case of letters, the style must not look at it. -/
structure Spelling.Suits (s : Spelling) (style : CallStyle) : Prop where
  anyCase_or : style.anyCase = true ∨ s.IsExact
  keyword_ne_nil : style.keyword.toList ≠ []
  keyword_plain : Spelling.IsPlain style.keyword.toList
  divider_plain : Spelling.IsPlain style.divider.toList

namespace Spelling

variable {s : Spelling} {style : CallStyle} {name : List Char}

theorem isName_respell (s : Spelling) (h : IsName name) :
    IsName (s.respell name) where
  ne_nil := mt s.respell_eq_nil_iff.1 h.ne_nil
  isWord_of_mem := by
    intro c hc
    obtain ⟨d, hd, hspell⟩ := List.mem_flatMap.1 hc
    rw [s.class_of_mem_spell isUniform_isWord hspell]
    exact h.isWord_of_mem d hd

theorem wordBoundary_respell (s : Spelling) {previous previous' : Option Char}
    (hprevious : previous'.any isWord = previous.any isWord) (text : List Char) :
    wordBoundary previous' (s.respell text).head? =
      wordBoundary previous text.head? := by
  rw [wordBoundary, wordBoundary, hprevious, s.head?_any_respell isUniform_isWord]

theorem Suits.reversed (suits : s.Suits style) : s.reversed.Suits style where
  anyCase_or := suits.anyCase_or
  keyword_ne_nil := suits.keyword_ne_nil
  keyword_plain := suits.keyword_plain
  divider_plain := suits.divider_plain

namespace Suits

theorem after?_respell (suits : s.Suits style) {marker : List Char}
    (h : IsSolid marker) (text : List Char) :
    style.after? (s.respell marker) (s.respell text) =
      (style.after? marker text).map s.respell := by
  unfold CallStyle.after?
  by_cases hcase : style.anyCase = true
  · rw [if_pos hcase, if_pos hcase, s.afterAnyCase?_respell h]
  · have exact := suits.anyCase_or.resolve_left hcase
    rw [if_neg hcase, if_neg hcase, exact.respell_eq_self h,
      s.after?_respell marker (exact.keeps_all h)]

theorem after?_respell_of_isPlain (suits : s.Suits style) {marker : List Char}
    (h : IsPlain marker) (text : List Char) :
    style.after? marker (s.respell text) =
      (style.after? marker text).map s.respell := by
  have hrespell := suits.after?_respell h.isSolid text
  rwa [s.respell_of_isPlain h] at hrespell

theorem respells_site? (suits : s.Suits style) (hname : IsName name) :
    Respells s (style.site? name) (style.site? (s.respell name)) s.respell := by
  intro previous previous' text hprevious
  unfold CallStyle.site?
  rw [s.wordBoundary_respell hprevious]
  split
  · exact bind_eq_map_bind (suits.after?_respell hname.solid text)
      fun opened _ => s.parenthesized?_respell opened
  · rfl

private theorem respells_declaration? (suits : s.Suits style)
    (hname : IsName name) :
    Respells s (style.declaration? name) (style.declaration? (s.respell name))
      id := by
  intro previous previous' text hprevious
  have hopening := s.after?_dropBlanks_respell ['('] (s.keeps_signs (by decide))
  unfold CallStyle.declaration?
  rw [s.wordBoundary_respell hprevious]
  split
  · have hkeyword := suits.after?_respell_of_isPlain suits.keyword_plain text
    refine bind_eq_map_bind
      (bind_eq_map_bind hkeyword fun tail _ => s.dropBlanks?_respell tail)
        fun blanks _ => ?_
    refine bind_eq_map_bind (suits.after?_respell hname.solid blanks)
      fun afterName _ => ?_
    exact bind_eq_map_bind (hopening afterName) fun rest _ => rfl
  · rfl

private theorem divisor?_respell (suits : s.Suits style) (argument : List Char) :
    style.divisor? (s.respell argument) = style.divisor? argument := by
  have hplain : IsPlain style.divider.toList.reverse :=
    fun m hm => suits.divider_plain m (List.mem_reverse.1 hm)
  have hdivisor : style.divisor? (s.respell argument) =
      (style.divisor? argument).map id := by
    unfold CallStyle.divisor?
    rw [s.reverse_respell]
    refine bind_eq_map_bind (s.reversed.run?_respell isUniform_isDigit _) ?_
    rintro ⟨digits, rest⟩ hdigits
    have hdigitsPlain : IsPlain digits :=
      isPlain_of_class isUniform_isDigit (by decide)
        (by decide) (of_run?_eq_some hdigits).2.1
    dsimp only [Prod.map_apply]
    rw [s.reversed.dropBlanks_respell, s.reversed.respell_of_isPlain hdigitsPlain]
    exact bind_eq_map_bind (suits.reversed.after?_respell_of_isPlain hplain _)
      fun _ _ => rfl
  rw [hdivisor, Option.map_id, id]

private theorem respells_dividingSite? (suits : s.Suits style)
    (hname : IsName name) :
    Respells s (style.dividingSite? name) (style.dividingSite? (s.respell name))
      id := by
  intro previous previous' text hprevious
  refine bind_eq_map_bind
    (suits.respells_site? hname previous previous' text hprevious) ?_
  rintro ⟨argument, rest⟩ _
  dsimp only [Prod.map_apply]
  rw [suits.divisor?_respell]
  cases style.divisor? argument <;> rfl

theorem infer_respell (suits : s.Suits style) (code : List Char)
    (hname : IsName name) :
    style.infer (s.respell code) (s.respell name) = style.infer code name := by
  have hrespelled := s.isName_respell hname
  have hkeyword := suits.keyword_plain.isSolid
  have hdividing := (suits.respells_dividingSite? hname).firstMatch?_eq
    (CallStyle.isAnchored_dividingSite? hname.ne_nil hname.solid)
    (CallStyle.isAnchored_dividingSite? hrespelled.ne_nil hrespelled.solid) code
  have hsites := (suits.respells_site? hname).allMatches_eq
    (CallStyle.isAnchored_site? hname.ne_nil hname.solid)
    (CallStyle.isAnchored_site? hrespelled.ne_nil hrespelled.solid) code
  have hdeclarations := (suits.respells_declaration? hname).allMatches_eq
    (CallStyle.isAnchored_declaration? suits.keyword_ne_nil hkeyword)
    (CallStyle.isAnchored_declaration? suits.keyword_ne_nil hkeyword) code
  simp only [CallStyle.infer, hdividing, hsites, hdeclarations, List.length_map,
    Option.map_id]
  rfl

private theorem ofFunction_respell (suits : s.Suits style) (exact : s.IsExact)
    (code : List Char) (hname : IsName name) :
    ofFunction style (s.respell code) name = ofFunction style code name := by
  have hinfer := suits.infer_respell code hname
  rw [exact.respell_eq_self hname.solid] at hinfer
  unfold ofFunction
  rw [hinfer]

theorem mapM_ofFunction_respell (suits : s.Suits style) (exact : s.IsExact)
    (code : List Char) {names : List (List Char)}
    (h : ∀ name ∈ names, IsName name) :
    (names.map s.respell).mapM (ofFunction style (s.respell code)) =
      names.mapM (ofFunction style code) := by
  have hnames : names.map s.respell = names.map id :=
    List.map_congr_left fun name hname =>
      exact.respell_eq_self (h name hname).solid
  rw [hnames, List.map_id]
  exact mapM_congr fun name hname =>
    suits.ofFunction_respell exact code (h name hname)

end Suits

end Spelling

end SnippetGrowth
