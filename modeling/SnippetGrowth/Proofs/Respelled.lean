import SnippetGrowth.Proofs.Recognisers
import SnippetGrowth.Proofs.Spelling

/-!
# Searches in texts spelled anew

A recogniser respects a spelling if it finds in the text spelled anew what it
finds in the text, spelled anew.  A whole search then does so too: line ends
are passed over one character after the other, and behind each find both
searches stand at the same place of their texts.
-/

namespace SnippetGrowth

open Text Scan

/-- Whether one recogniser finds in a text spelled anew what another finds in
the text, seen through a view of what is found. Of the characters before the two
positions only the word characters count. -/
def Respells {α : Type} (s : Spelling) (recognise respelled : Recogniser α)
    (view : α → α) : Prop :=
  ∀ (previous previous' : Option Char) (text : List Char),
    previous'.any isWord = previous.any isWord →
      respelled previous' (s.respell text) =
        (recognise previous text).map (Prod.map view s.respell)

namespace Respells

variable {α : Type} {s : Spelling} {recognise respelled : Recogniser α}
  {view : α → α}

private theorem matchesFrom_eq (h : Respells s recognise respelled view)
    (anchored : IsAnchored recognise) (anchored' : IsAnchored respelled)
    (previous previous' : Option Char) (text : List Char)
    (hprevious : previous'.any isWord = previous.any isWord) :
    matchesFrom respelled previous' 0 (s.respell text) =
      (matchesFrom recognise previous 0 text).map view := by
  -- A find passes over several characters at once, so the induction is on the
  -- length.
  induction hlength : text.length using Nat.strong_induction_on
    generalizing text previous previous' with
  | _ length ih =>
  subst hlength
  cases text with
  | nil => rfl
  | cons c rest =>
      have hhere := h previous previous' (c :: rest) hprevious
      cases hfound : recognise previous (c :: rest) with
      | none =>
          obtain ⟨d, ends, hspell, hends⟩ := s.exists_spell_eq c
          have hlast : (ends.getLast?.or (some d)).any isWord =
              (some c).any isWord := by
            have hsingle := s.getLast?_any_respell isUniform_isWord [c]
            rw [s.respell_cons, hspell, s.respell_nil, List.append_nil] at hsingle
            rw [← getLast?_cons_or d ends none, Option.or_none]
            exact hsingle
          rw [hfound] at hhere
          rw [s.respell_cons, hspell, List.cons_append] at hhere ⊢
          rw [matchesFrom_missed hfound, matchesFrom_missed hhere,
            matchesFrom_lineEnds anchored' hends]
          exact ih rest.length (Nat.lt_succ_self _) _ _ rest hlast rfl
      | some pair =>
          obtain ⟨found, after⟩ := pair
          obtain ⟨front, rfl⟩ := anchored.suffix hfound
          have hne : c ≠ '\n' := by
            rintro rfl
            exact absurd (anchored.solid hfound) (by decide)
          have hlast := s.getLast?_any_respell isUniform_isWord (c :: front)
          rw [hfound] at hhere
          rw [s.respell_cons_of_ne hne, s.respell_append] at hhere ⊢
          rw [s.respell_cons_of_ne hne] at hlast
          rw [matchesFrom_found hfound, matchesFrom_found hhere, List.map_cons]
          refine congrArg (view found :: ·) ?_
          have hshorter : after.length < (c :: (front ++ after)).length := by
            rw [List.length_cons, List.length_append]
            omega
          exact ih after.length hshorter _ _ after hlast rfl

/-- All that is found in a text spelled anew is what is found in the text,
spelled anew. -/
theorem allMatches_eq (h : Respells s recognise respelled view)
    (anchored : IsAnchored recognise) (anchored' : IsAnchored respelled)
    (text : List Char) :
    allMatches respelled (s.respell text) =
      (allMatches recognise text).map view :=
  h.matchesFrom_eq anchored anchored' none none text rfl

theorem firstMatch?_eq (h : Respells s recognise respelled view)
    (anchored : IsAnchored recognise) (anchored' : IsAnchored respelled)
    (text : List Char) :
    firstMatch? respelled (s.respell text) =
      (firstMatch? recognise text).map view := by
  rw [firstMatch?_eq_head?, firstMatch?_eq_head?,
    h.allMatches_eq anchored anchored', List.head?_map]

end Respells

namespace Spelling

variable (s : Spelling)

/-! ## Steps between words -/

theorem after?_dropBlanks_respell (marker : List Char)
    (h : ∀ mark ∈ marker, s.Keeps mark) (text : List Char) :
    after? marker (dropBlanks (s.respell text)) =
      (after? marker (dropBlanks text)).map s.respell := by
  rw [dropBlanks_respell, after?_respell s marker h]

theorem after?_dropBlanks?_respell (marker : List Char)
    (h : ∀ mark ∈ marker, s.Keeps mark) (text : List Char) :
    (dropBlanks? (s.respell text)).bind (after? marker) =
      ((dropBlanks? text).bind (after? marker)).map s.respell :=
  bind_eq_map_bind (s.dropBlanks?_respell text) fun rest _ =>
    s.after?_respell marker h rest

theorem bind_word?_respell {opened respelled : Option (List Char)}
    (h : respelled = opened.map s.respell) :
    (respelled.bind dropBlanks?).bind word? =
      ((opened.bind dropBlanks?).bind word?).map
        (Prod.map s.respell s.respell) := by
  refine bind_eq_map_bind ?_ fun text _ => s.run?_respell isUniform_isWord text
  exact bind_eq_map_bind h fun text _ => s.dropBlanks?_respell text

theorem passed_respell_of_inside {text inside rest : List Char}
    (h : rest <:+ text) :
    (if (s.respell inside).isEmpty then none
      else some (passed (s.respell text) (s.respell rest), s.respell rest)) =
      (if inside.isEmpty then none else some (passed text rest, rest)).map
        (Prod.map s.respell s.respell) := by
  simp only [List.isEmpty_iff, respell_eq_nil_iff, passed_respell s h]
  split <;> rfl

/-! ## Headers -/

private theorem respells_header? (exact : s.IsExact) {keyword : String}
    (hsolid : IsSolid keyword.toList) :
    Respells s (header? keyword) (header? keyword) s.respell := by
  intro previous previous' text _
  have hopened : (after? keyword.toList (s.respell text)).bind parenthesized? =
      ((after? keyword.toList text).bind parenthesized?).map
          (Prod.map s.respell s.respell) :=
    bind_eq_map_bind (s.after?_respell _ (exact.keeps_all hsolid) text)
      fun opened _ => s.parenthesized?_respell opened
  refine bind_eq_map_bind hopened ?_
  rintro ⟨inside, rest⟩ hinside
  obtain ⟨opened, hmarker, hparentheses⟩ := Option.bind_eq_some_iff.1 hinside
  apply s.passed_respell_of_inside
  exact (parenthesized?_isSuffix hparentheses).trans (after?_isSuffix hmarker)

theorem headers_respell (exact : s.IsExact) {keyword : String}
    (hkeyword : keyword.toList ≠ []) (hsolid : IsSolid keyword.toList)
    (code : List Char) :
    headers keyword (s.respell code) = (headers keyword code).map s.respell :=
  (s.respells_header? exact hsolid).allMatches_eq
    (isAnchored_header? hkeyword hsolid)
    (isAnchored_header? hkeyword hsolid) code

theorem multiplies_respell (text : List Char) :
    multiplies (s.respell text) = multiplies text := by
  unfold multiplies
  rw [s.contains_respell s.keeps_sign, s.contains_respell s.keeps_sign]

private theorem updateClause_respell (inside : List Char) :
    updateClause (s.respell inside) = s.respell (updateClause inside) := by
  unfold updateClause
  rw [s.split_respell s.keeps_sign]
  cases split ';' inside with
  | nil => rfl
  | cons first clauses =>
      cases clauses with
      | nil => rfl
      | cons second clauses => cases clauses <;> rfl

private theorem afterParenthesis?_append_of_not_mem {front : List Char}
    (h : '(' ∉ front)
    (text : List Char) :
    afterParenthesis? (front ++ text) = afterParenthesis? text := by
  induction front with
  | nil => rfl
  | cons c front ih =>
      rw [List.mem_cons, not_or] at h
      rw [List.cons_append, afterParenthesis?, if_neg (Ne.symm h.1), ih h.2]

private theorem afterParenthesis?_respell (text : List Char) :
    afterParenthesis? (s.respell text) =
      (afterParenthesis? text).map s.respell := by
  have hopening : s.Keeps '(' := s.keeps_sign
  induction text with
  | nil => rfl
  | cons c text ih =>
      by_cases hc : c = '('
      · subst hc
        rw [respell_cons_of_ne s hopening.ne_newline, hopening.letter_eq]
        rfl
      · have habsent : '(' ∉ s.spell c := fun hmem =>
          hc (hopening.mem_spell_iff.1 hmem)
        rw [respell_cons, afterParenthesis?_append_of_not_mem habsent, ih,
          afterParenthesis?, if_neg hc]

private theorem isMultiplicativeUpdate_respell (front : List Char) :
    isMultiplicativeUpdate (s.respell (front ++ [')'])) =
      isMultiplicativeUpdate (front ++ [')']) := by
  have hclosing : s.Keeps ')' := s.keeps_sign
  unfold isMultiplicativeUpdate
  rw [afterParenthesis?_respell]
  cases hinside : afterParenthesis? (front ++ [')']) with
  | none => rfl
  | some inside =>
      have hdrop : (s.respell inside).dropLast = s.respell inside.dropLast := by
        rcases List.suffix_concat_iff.1 (afterParenthesis?_isSuffix hinside) with
          rfl | ⟨body, rfl, -⟩
        · rfl
        · rw [respell_append, respell_cons_of_ne s hclosing.ne_newline,
            hclosing.letter_eq, respell_nil, List.dropLast_concat,
            List.dropLast_concat]
      simp only [Option.map_some, hdrop, updateClause_respell, multiplies_respell]

theorem ofHeader_respell (nested : Bool) (front : List Char) :
    ofHeader nested (s.respell (front ++ [')'])) =
      ofHeader nested (front ++ [')']) := by
  unfold ofHeader
  rw [isMultiplicativeUpdate_respell]

/-! ## Loops and definitions over ranges -/

theorem usesPermutations_respell (exact : s.IsExact) (code : List Char) :
    usesPermutations (s.respell code) = usesPermutations code := by
  have hoccurs : ∀ marker : List Char, marker ≠ [] → IsSolid marker →
      occursIn marker (s.respell code) = occursIn marker code :=
    fun marker hmarker hsolid =>
      s.occursIn_respell hmarker (exact.keeps_all hsolid) code
  unfold usesPermutations
  rw [hoccurs "import itertools".toList (by decide) (by decide),
    hoccurs "from itertools import".toList (by decide) (by decide),
    hoccurs "permutations".toList (by decide) (by decide)]

theorem respells_rangeLoop? (exact : s.IsExact) :
    Respells s rangeLoop? rangeLoop? s.respell := by
  intro previous previous' text _
  have hfor := s.after?_respell "for".toList (exact.keeps_all (by decide))
  have hin :=
    s.after?_dropBlanks?_respell "in".toList (exact.keeps_all (by decide))
  have hrange :=
    s.after?_dropBlanks?_respell "range".toList (exact.keeps_all (by decide))
  refine bind_eq_map_bind (s.bind_word?_respell (hfor text)) ?_
  rintro ⟨name, afterName⟩ hname
  refine bind_eq_map_bind (hin afterName) fun afterIn hafterIn => ?_
  refine bind_eq_map_bind (hrange afterIn) fun afterRange hafterRange => ?_
  refine bind_eq_map_bind (s.parenthesized?_respell afterRange) ?_
  rintro ⟨inside, rest⟩ hinside
  obtain ⟨opened, hopened, hsuffix⟩ := of_bind_word? hname
  apply s.passed_respell_of_inside
  calc rest <:+ afterRange := parenthesized?_isSuffix hinside
    _ <:+ afterIn := after?_dropBlanks?_isSuffix hafterRange
    _ <:+ afterName := after?_dropBlanks?_isSuffix hafterIn
    _ <:+ opened := hsuffix
    _ <:+ text := after?_isSuffix hopened

private theorem respells_rangeArguments? (exact : s.IsExact) :
    Respells s rangeArguments? rangeArguments? s.respell := by
  intro previous previous' text _
  have hrange := s.after?_respell "range".toList (exact.keeps_all (by decide))
  have hopening := s.after?_dropBlanks_respell ['('] (exact.keeps_all (by decide))
  refine bind_eq_map_bind (hrange text) fun opened _ => ?_
  refine bind_eq_map_bind (hopening opened) fun arguments _ => ?_
  rw [s.span_respell isUniform_ne_closing]
  rfl

theorem hasMultiplicativeStep_respell (exact : s.IsExact) (loop : List Char) :
    hasMultiplicativeStep (s.respell loop) = hasMultiplicativeStep loop := by
  unfold hasMultiplicativeStep
  rw [(s.respells_rangeArguments? exact).firstMatch?_eq isAnchored_rangeArguments?
    isAnchored_rangeArguments?]
  cases firstMatch? rangeArguments? loop with
  | none => rfl
  | some arguments =>
      have hcomma : s.Keeps ',' := s.keeps_sign
      simp only [Option.map_some, s.split_respell hcomma]
      cases split ',' arguments with
      | nil => rfl
      | cons first pieces =>
          cases pieces with
          | nil => rfl
          | cons second pieces =>
              cases pieces with
              | nil => rfl
              | cons step pieces => exact s.multiplies_respell step

private theorem skipResultType_respell (text : List Char) :
    skipResultType (s.respell text) = s.respell (skipResultType text) := by
  have harrow := s.after?_respell ['-', '>'] (s.keeps_signs (by decide))
  have huniform : IsUniform (· != ':') := isUniform_ne (by decide) (by decide)
  unfold skipResultType
  rw [harrow]
  cases after? ['-', '>'] text with
  | none => rfl
  | some type =>
      simp only [Option.map_some, s.span_respell huniform,
        List.span_eq_takeWhile_dropWhile]
      cases htype : type.takeWhile (· != ':') with
      | nil => rfl
      | cons c name =>
          obtain ⟨d, more, hcons⟩ := List.exists_cons_of_ne_nil
            (mt s.respell_eq_nil_iff.1 (List.cons_ne_nil c name))
          simp only [hcons]

theorem respells_definition? (exact : s.IsExact) :
    Respells s definition? definition? s.respell := by
  intro previous previous' text _
  have hdef := s.after?_respell "def".toList (exact.keeps_all (by decide))
  have hcolon := s.after?_respell [':'] (exact.keeps_all (by decide))
  rw [definition?_eq, definition?_eq]
  refine bind_eq_map_bind (s.bind_word?_respell (hdef text)) ?_
  rintro ⟨name, afterName⟩ _
  refine bind_eq_map_bind (s.parenthesized?_respell afterName) ?_
  rintro ⟨inside, rest⟩ _
  dsimp only [Prod.map_apply]
  rw [dropBlanks_respell, skipResultType_respell, hcolon, Option.map_map,
    Option.map_map]
  rfl

/-! ## Counted loops and functions -/

theorem afterAnyCase?_eq_none_of_isLineEnd (marker : List Char)
    (hmarker : marker ≠ []) (hsolid : IsSolid marker) {c : Char}
    (hc : isLineEnd c = true) (rest : List Char) :
    afterAnyCase? marker (c :: rest) = none := by
  rw [Option.eq_none_iff_forall_ne_some]
  intro after h
  have hother := (readsMarker_afterAnyCase? hmarker hsolid c rest after h).1
  rw [hc] at hother
  contradiction

theorem afterAnyCase?_respell_of_isPlain (marker : List Char) (h : IsPlain marker)
    (text : List Char) :
    afterAnyCase? marker (s.respell text) =
      (afterAnyCase? marker text).map s.respell := by
  have hrespell := s.afterAnyCase?_respell h.isSolid text
  rwa [s.respell_of_isPlain h] at hrespell

theorem afterLast?_lineEnds {marker : List Char} (hmarker : marker ≠ [])
    (hsolid : IsSolid marker) {ends : List Char}
    (hends : ∀ c ∈ ends, isLineEnd c = true) (rest : List Char) :
    afterLast? marker (ends ++ rest) = afterLast? marker rest := by
  induction ends with
  | nil => rfl
  | cons c ends ih =>
      have htail := ih fun d hd => hends d (List.mem_cons_of_mem c hd)
      have hnone := afterAnyCase?_eq_none_of_isLineEnd marker hmarker hsolid
        (hends c List.mem_cons_self) (ends ++ rest)
      rw [List.cons_append, afterLast?, htail, hnone]
      cases afterLast? marker rest <;> rfl

private theorem afterLast?_respell {marker : List Char} (hmarker : marker ≠ [])
    (h : IsPlain marker) (text : List Char) :
    afterLast? marker (s.respell text) =
      (afterLast? marker text).map s.respell := by
  induction text with
  | nil => rfl
  | cons c rest ih =>
      obtain ⟨d, ends, hspell, hends⟩ := s.exists_spell_eq c
      have hhere := s.afterAnyCase?_respell_of_isPlain marker h (c :: rest)
      rw [respell_cons, hspell, List.cons_append] at hhere ⊢
      rw [afterLast?, afterLast?, afterLast?_lineEnds hmarker h.isSolid hends, ih,
        hhere]
      cases afterLast? marker rest <;> rfl

private theorem afterBounds?_lineEnds {ends : List Char}
    (hends : ∀ c ∈ ends, isLineEnd c = true) (c d : Char) (rest : List Char) :
    afterBounds? (c :: (ends ++ rest)) = afterBounds? (d :: rest) := by
  induction ends generalizing c with
  | nil => rfl
  | cons e ends ih =>
      have hnone := afterAnyCase?_eq_none_of_isLineEnd "to".toList (by decide)
        (by decide) (hends e List.mem_cons_self) (ends ++ rest)
      rw [List.cons_append, afterBounds?, hnone]
      exact ih (fun f hf => hends f (List.mem_cons_of_mem e hf)) e

private theorem afterLast?_drop_respell {marker : List Char}
    (hmarker : marker ≠ []) (h : IsPlain marker) (text : List Char) :
    afterLast? marker ((s.respell text).drop 1) =
      (afterLast? marker (text.drop 1)).map s.respell := by
  cases text with
  | nil => rfl
  | cons c rest =>
      obtain ⟨d, ends, hspell, hends⟩ := s.exists_spell_eq c
      rw [respell_cons, hspell, List.cons_append, List.drop_one, List.tail_cons,
        List.drop_one, List.tail_cons,
        afterLast?_lineEnds hmarker h.isSolid hends,
        afterLast?_respell s hmarker h]

private theorem afterBounds?_respell (text : List Char) :
    afterBounds? (s.respell text) = (afterBounds? text).map s.respell := by
  induction text with
  | nil => rfl
  | cons c rest ih =>
      obtain ⟨d, ends, hspell, hends⟩ := s.exists_spell_eq c
      rw [respell_cons, hspell, List.cons_append, afterBounds?_lineEnds hends d d,
        afterBounds?, afterBounds?, s.afterAnyCase?_respell_of_isPlain _
          (by decide)]
      cases afterAnyCase? "to".toList rest with
      | none => exact ih
      | some after =>
          exact s.afterLast?_drop_respell (by decide) (by decide) after

theorem respells_countedLoop? : Respells s countedLoop? countedLoop? id := by
  intro previous previous' text _
  have hfor := s.afterAnyCase?_respell_of_isPlain "for".toList (by decide)
  have hassign :=
    s.after?_dropBlanks_respell [':', '='] (s.keeps_signs (by decide))
  have huniform : IsUniform (· != ';') := isUniform_ne (by decide) (by decide)
  refine bind_eq_map_bind (s.bind_word?_respell (hfor text)) ?_
  rintro ⟨name, afterName⟩ _
  refine bind_eq_map_bind (hassign afterName) fun assigned _ => ?_
  rw [s.span_respell huniform]
  refine bind_eq_map_bind (s.afterBounds?_respell _) fun tail _ => ?_
  rw [← s.respell_append]
  rfl

theorem respells_functionHeader? :
    Respells s functionHeader? functionHeader? s.respell := by
  intro previous previous' text _
  have hfunction :=
    s.afterAnyCase?_respell_of_isPlain "function".toList (by decide)
  have hcolon := s.after?_dropBlanks_respell [':'] (s.keeps_signs (by decide))
  refine bind_eq_map_bind (s.bind_word?_respell (hfunction text)) ?_
  rintro ⟨name, afterName⟩ _
  refine bind_eq_map_bind (s.parenthesized?_respell afterName) ?_
  rintro ⟨inside, rest⟩ _
  refine bind_eq_map_bind (hcolon rest) fun typed _ => ?_
  rw [dropBlanks_respell]
  exact bind_eq_map_bind (s.run?_respell isUniform_isWord _) fun _ _ => rfl

end Spelling

end SnippetGrowth
