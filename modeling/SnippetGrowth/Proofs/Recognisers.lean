import Mathlib.Data.List.Infix
import SnippetGrowth.Proofs.Matching
import SnippetGrowth.Scan.Counted
import SnippetGrowth.Scan.Headers
import SnippetGrowth.Scan.Ranges

/-!
# Where the recognisers start and stop

Each recogniser of the scans starts at a word or a name, so it finds nothing
at a line end, and what it leaves is a later part of the text.
-/

namespace SnippetGrowth.Scan

open Text

/-! ## Markers -/

def ReadsMarker (read : List Char → Option (List Char)) : Prop :=
  ∀ (c : Char) (rest after : List Char), read (c :: rest) = some after →
    isLineEnd c = false ∧ after <:+ rest

theorem readsMarker_after? {marker : List Char} (hmarker : marker ≠ [])
    (hsolid : IsSolid marker) : ReadsMarker (after? marker) := by
  intro c rest after h
  obtain ⟨m, marker, rfl⟩ := List.exists_cons_of_ne_nil hmarker
  obtain ⟨rfl, rfl⟩ := List.cons.inj (after?_eq_some_iff.1 h)
  exact ⟨hsolid _ List.mem_cons_self, List.suffix_append _ _⟩

theorem afterAnyCase?_isSuffix {marker text rest : List Char}
    (h : afterAnyCase? marker text = some rest) : rest <:+ text := by
  induction marker generalizing text with
  | nil =>
      cases h
      exact List.suffix_rfl
  | cons m marker ih =>
      cases text with
      | nil => contradiction
      | cons c text =>
          rw [afterAnyCase?] at h
          split at h
          · exact (ih h).trans (List.suffix_cons c text)
          · contradiction

theorem readsMarker_afterAnyCase? {marker : List Char} (hmarker : marker ≠ [])
    (hsolid : IsSolid marker) : ReadsMarker (afterAnyCase? marker) := by
  intro c rest after h
  obtain ⟨m, marker, rfl⟩ := List.exists_cons_of_ne_nil hmarker
  rw [afterAnyCase?] at h
  split at h
  · next hsame =>
      rw [← isLineEnd_eq_of_sameLetter hsame]
      exact ⟨hsolid m List.mem_cons_self, afterAnyCase?_isSuffix h⟩
  · contradiction

theorem CallStyle.readsMarker_after? (style : CallStyle) {marker : List Char}
    (hmarker : marker ≠ []) (hsolid : IsSolid marker) :
    ReadsMarker (style.after? marker) := by
  unfold CallStyle.after?
  cases style.anyCase with
  | true => exact readsMarker_afterAnyCase? hmarker hsolid
  | false => exact Scan.readsMarker_after? hmarker hsolid

theorem isAnchored_of_marker {α : Type} {recognise : Recogniser α}
    {read : List Char → Option (List Char)} (hread : ReadsMarker read)
    (h : ∀ {previous text found after},
      recognise previous text = some (found, after) →
      ∃ opened, read text = some opened ∧ after <:+ opened) :
      IsAnchored recognise where
  solid := by
    intro previous c rest after found hfound
    obtain ⟨opened, hopened, -⟩ := h hfound
    exact (hread c rest opened hopened).1
  suffix := by
    intro previous c rest after found hfound
    obtain ⟨opened, hopened, hafter⟩ := h hfound
    exact hafter.trans (hread c rest opened hopened).2

/-! ## Steps between words -/

theorem after?_isSuffix {marker text rest : List Char}
    (h : after? marker text = some rest) :
    rest <:+ text :=
  ⟨marker, (after?_eq_some_iff.1 h).symm⟩

theorem dropBlanks_isSuffix (text : List Char) : dropBlanks text <:+ text :=
  List.dropWhile_suffix isBlank

theorem after?_dropBlanks_isSuffix {marker text rest : List Char}
    (h : after? marker (dropBlanks text) = some rest) : rest <:+ text :=
  (after?_isSuffix h).trans (dropBlanks_isSuffix text)

theorem after?_dropBlanks?_isSuffix {marker text rest : List Char}
    (h : (dropBlanks? text).bind (after? marker) = some rest) :
    rest <:+ text := by
  obtain ⟨tail, hblanks, hmarker⟩ := Option.bind_eq_some_iff.1 h
  exact (after?_isSuffix hmarker).trans (dropBlanks?_isSuffix hblanks)

theorem of_bind_word? {opened : Option (List Char)} {name rest : List Char}
    (h : (opened.bind dropBlanks?).bind word? = some (name, rest)) :
    ∃ tail, opened = some tail ∧ rest <:+ tail := by
  obtain ⟨front, hfront, hword⟩ := Option.bind_eq_some_iff.1 h
  obtain ⟨tail, htail, hblanks⟩ := Option.bind_eq_some_iff.1 hfront
  exact ⟨tail, htail, (run?_isSuffix hword).trans (dropBlanks?_isSuffix hblanks)⟩

/-! ## Names -/

structure IsName (name : List Char) : Prop where
  ne_nil : name ≠ []
  isWord_of_mem : ∀ c ∈ name, isWord c = true

theorem IsName.solid {name : List Char} (h : IsName name) : IsSolid name :=
  fun c hc => isLineEnd_eq_false_of_isWord (h.isWord_of_mem c hc)

theorem isName_of_bind_word? {opened : Option (List Char)} {name rest : List Char}
    (h : (opened.bind dropBlanks?).bind word? = some (name, rest)) :
    IsName name := by
  obtain ⟨front, -, hword⟩ := Option.bind_eq_some_iff.1 h
  obtain ⟨hne, hall, -⟩ := of_run?_eq_some hword
  exact ⟨hne, hall⟩

/-! ## Headers -/

def IsHeader (keyword header : List Char) : Prop :=
  ∃ blanks inside, (∀ c ∈ blanks, isBlank c = true) ∧ inside ≠ [] ∧ ')' ∉ inside ∧
    header = keyword ++ (blanks ++ '(' :: (inside ++ [')']))

theorem header?_eq_some_iff {keyword : String} {previous : Option Char}
    {text header rest : List Char} :
    header? keyword previous text = some (header, rest) ↔
      IsHeader keyword.toList header ∧ text = header ++ rest := by
  constructor
  · intro h
    obtain ⟨⟨inside, rest⟩, hopened, h⟩ := Option.bind_eq_some_iff.1 h
    obtain ⟨opened, hkeyword, hparentheses⟩ := Option.bind_eq_some_iff.1 hopened
    obtain ⟨blanks, hblanks, hinside, hopened⟩ :=
      parenthesized?_eq_some_iff.1 hparentheses
    have htext :
        text = (keyword.toList ++ (blanks ++ '(' :: (inside ++ [')']))) ++
          rest := by
      rw [after?_eq_some_iff.1 hkeyword, hopened]
      simp
    dsimp only at h
    split at h
    · contradiction
    · next hempty =>
        obtain ⟨rfl, rfl⟩ := Prod.mk.inj (Option.some.inj h)
        have hne : inside ≠ [] := by simpa using hempty
        rw [htext, passed_append]
        exact ⟨⟨blanks, inside, hblanks, hne, hinside, rfl⟩, rfl⟩
  · rintro ⟨⟨blanks, inside, hblanks, hne, hinside, rfl⟩, rfl⟩
    have hempty : inside.isEmpty = false := by simpa using hne
    have htext : keyword.toList ++ (blanks ++ '(' :: (inside ++ ')' :: rest)) =
        (keyword.toList ++ (blanks ++ '(' :: (inside ++ [')']))) ++ rest := by
          simp
    have hopened : (after? keyword.toList
        ((keyword.toList ++ (blanks ++ '(' :: (inside ++ [')']))) ++ rest)).bind
          parenthesized? =
          some (inside, rest) := by
      rw [← htext, after?_eq_some_iff.2 rfl]
      exact parenthesized?_eq_some_iff.2 ⟨blanks, hblanks, hinside, rfl⟩
    unfold header?
    rw [hopened]
    simp only [Option.bind_eq_bind, Option.bind_some, hempty, Bool.false_eq_true,
      if_false, passed_append]

theorem isAnchored_header? {keyword : String} (hkeyword : keyword.toList ≠ [])
    (hsolid : IsSolid keyword.toList) : IsAnchored (header? keyword) := by
  refine isAnchored_of_marker (readsMarker_after? hkeyword hsolid) ?_
  intro previous text header after h
  obtain ⟨⟨blanks, inside, -, -, -, rfl⟩, rfl⟩ := header?_eq_some_iff.1 h
  refine ⟨blanks ++ '(' :: (inside ++ ')' :: after),
    after?_eq_some_iff.2 (by simp), ?_⟩
  exact ⟨blanks ++ '(' :: (inside ++ [')']), by simp⟩

theorem isHeader_of_mem_headers {keyword : String} {code header : List Char}
    (h : header ∈ headers keyword code) : IsHeader keyword.toList header := by
  obtain ⟨before, position, after, hfound⟩ := of_mem_allMatches h
  exact (header?_eq_some_iff.1 hfound).1

theorem shape_of_mem_headers {keyword : String} {code header : List Char}
    (h : header ∈ headers keyword code) :
    ∃ front inside, header = front ++ '(' :: (inside ++ [')']) := by
  obtain ⟨blanks, inside, -, -, -, rfl⟩ := isHeader_of_mem_headers h
  exact ⟨keyword.toList ++ blanks, inside, by simp⟩

theorem afterParenthesis?_isSuffix {text rest : List Char}
    (h : afterParenthesis? text = some rest) : rest <:+ text := by
  induction text with
  | nil => contradiction
  | cons c text ih =>
      rw [afterParenthesis?] at h
      split at h
      · cases h
        exact List.suffix_cons c rest
      · exact (ih h).trans (List.suffix_cons c text)

/-! ## Loops and definitions over ranges -/

theorem isAnchored_rangeLoop? : IsAnchored rangeLoop? := by
  have hfor : ReadsMarker (after? "for".toList) :=
    readsMarker_after? (by decide) (by decide)
  refine isAnchored_of_marker hfor ?_
  intro previous text found after h
  obtain ⟨⟨name, afterName⟩, hname, h⟩ := Option.bind_eq_some_iff.1 h
  obtain ⟨afterIn, hin, h⟩ := Option.bind_eq_some_iff.1 h
  obtain ⟨afterRange, hrange, h⟩ := Option.bind_eq_some_iff.1 h
  obtain ⟨⟨inside, rest⟩, hinside, h⟩ := Option.bind_eq_some_iff.1 h
  obtain ⟨opened, hopened, hsuffix⟩ := of_bind_word? hname
  refine ⟨opened, hopened, ?_⟩
  dsimp only at h
  split at h
  · contradiction
  · obtain ⟨-, rfl⟩ := Prod.mk.inj (Option.some.inj h)
    calc rest <:+ afterRange := parenthesized?_isSuffix hinside
      _ <:+ afterIn := after?_dropBlanks?_isSuffix hrange
      _ <:+ afterName := after?_dropBlanks?_isSuffix hin
      _ <:+ opened := hsuffix

theorem isAnchored_rangeArguments? : IsAnchored rangeArguments? := by
  have hword : ReadsMarker (after? "range".toList) :=
    readsMarker_after? (by decide) (by decide)
  refine isAnchored_of_marker hword ?_
  intro previous text found after h
  obtain ⟨opened, hopened, h⟩ := Option.bind_eq_some_iff.1 h
  obtain ⟨arguments, harguments, h⟩ := Option.bind_eq_some_iff.1 h
  rw [List.span_eq_takeWhile_dropWhile] at h
  obtain ⟨-, rfl⟩ := Prod.mk.inj (Option.some.inj h)
  refine ⟨opened, hopened, ?_⟩
  exact (List.dropWhile_suffix _).trans (after?_dropBlanks_isSuffix harguments)

def skipResultType (text : List Char) : List Char :=
  match after? ['-', '>'] text with
  | some type =>
      match type.span (· != ':') with
      | ([], _) => text
      | (_, rest) => rest
  | none => text

theorem definition?_eq (previous : Option Char) (text : List Char) :
    definition? previous text =
      (((after? "def".toList text).bind dropBlanks?).bind word?).bind
        fun (name, rest) =>
        (parenthesized? rest).bind fun (_, rest) =>
          (after? [':'] (skipResultType (dropBlanks rest))).map fun rest =>
            (name, rest) := by
  simp only [Option.map_eq_bind]
  rfl

private theorem skipResultType_isSuffix (text : List Char) :
    skipResultType text <:+ text := by
  unfold skipResultType
  cases hmarker : after? ['-', '>'] text with
  | none => exact List.suffix_rfl
  | some type =>
      simp only [List.span_eq_takeWhile_dropWhile]
      split
      · exact List.suffix_rfl
      · next heq =>
          obtain ⟨-, rfl⟩ := Prod.mk.inj heq
          exact (List.dropWhile_suffix _).trans (after?_isSuffix hmarker)

theorem isAnchored_definition? : IsAnchored definition? := by
  have hdef : ReadsMarker (after? "def".toList) :=
    readsMarker_after? (by decide) (by decide)
  refine isAnchored_of_marker hdef ?_
  intro previous text found after h
  rw [definition?_eq] at h
  obtain ⟨⟨name, afterName⟩, hname, h⟩ := Option.bind_eq_some_iff.1 h
  obtain ⟨⟨inside, rest⟩, hinside, h⟩ := Option.bind_eq_some_iff.1 h
  obtain ⟨closed, hclosed, h⟩ := Option.map_eq_some_iff.1 h
  obtain ⟨-, rfl⟩ := Prod.mk.inj h
  obtain ⟨opened, hopened, hsuffix⟩ := of_bind_word? hname
  refine ⟨opened, hopened, ?_⟩
  calc closed <:+ skipResultType (dropBlanks rest) := after?_isSuffix hclosed
    _ <:+ dropBlanks rest := skipResultType_isSuffix _
    _ <:+ rest := dropBlanks_isSuffix rest
    _ <:+ afterName := parenthesized?_isSuffix hinside
    _ <:+ opened := hsuffix

private theorem isName_of_definition? {previous : Option Char}
    {text name after : List Char}
    (h : definition? previous text = some (name, after)) : IsName name := by
  rw [definition?_eq] at h
  obtain ⟨⟨word, rest⟩, hword, h⟩ := Option.bind_eq_some_iff.1 h
  obtain ⟨⟨inside, rest⟩, -, h⟩ := Option.bind_eq_some_iff.1 h
  obtain ⟨closed, -, h⟩ := Option.map_eq_some_iff.1 h
  obtain ⟨rfl, -⟩ := Prod.mk.inj h
  exact isName_of_bind_word? hword

theorem isName_of_mem_definitions {code name : List Char}
    (h : name ∈ allMatches definition? code) : IsName name := by
  obtain ⟨before, position, after, hfound⟩ := of_mem_allMatches h
  exact isName_of_definition? hfound

/-! ## Counted loops and functions -/

private theorem afterLast?_isSuffix {marker text rest : List Char}
    (h : afterLast? marker text = some rest) : rest <:+ text := by
  induction text with
  | nil => contradiction
  | cons c text ih =>
      rw [afterLast?] at h
      split at h
      · next found hfound =>
          cases h
          exact (ih hfound).trans (List.suffix_cons c text)
      · exact afterAnyCase?_isSuffix h

private theorem afterBounds?_isSuffix {text rest : List Char}
    (h : afterBounds? text = some rest) :
    rest <:+ text := by
  induction text with
  | nil => contradiction
  | cons c text ih =>
      rw [afterBounds?] at h
      split at h
      · next after hto =>
          calc rest <:+ after.drop 1 := afterLast?_isSuffix h
            _ <:+ after := List.drop_suffix 1 after
            _ <:+ text := afterAnyCase?_isSuffix hto
            _ <:+ c :: text := List.suffix_cons c text
      · exact (ih h).trans (List.suffix_cons c text)

theorem isAnchored_countedLoop? : IsAnchored countedLoop? := by
  have hfor : ReadsMarker (afterAnyCase? "for".toList) :=
    readsMarker_afterAnyCase? (by decide) (by decide)
  refine isAnchored_of_marker hfor ?_
  intro previous text found after h
  obtain ⟨⟨name, afterName⟩, hname, h⟩ := Option.bind_eq_some_iff.1 h
  obtain ⟨assigned, hassigned, h⟩ := Option.bind_eq_some_iff.1 h
  rw [List.span_eq_takeWhile_dropWhile] at h
  obtain ⟨tail, htail, h⟩ := Option.bind_eq_some_iff.1 h
  obtain ⟨-, rfl⟩ := Prod.mk.inj (Option.some.inj h)
  obtain ⟨opened, hopened, hsuffix⟩ := of_bind_word? hname
  refine ⟨opened, hopened, ?_⟩
  have hwhole : tail ++ assigned.dropWhile (· != ';') <:+ assigned := by
    obtain ⟨front, hfront⟩ := afterBounds?_isSuffix htail
    refine ⟨front, ?_⟩
    rw [← List.append_assoc, hfront, List.takeWhile_append_dropWhile]
  exact hwhole.trans ((after?_dropBlanks_isSuffix hassigned).trans hsuffix)

theorem isAnchored_functionHeader? : IsAnchored functionHeader? := by
  have hfunction : ReadsMarker (afterAnyCase? "function".toList) :=
    readsMarker_afterAnyCase? (by decide) (by decide)
  refine isAnchored_of_marker hfunction ?_
  intro previous text found after h
  obtain ⟨⟨name, afterName⟩, hname, h⟩ := Option.bind_eq_some_iff.1 h
  obtain ⟨⟨inside, rest⟩, hinside, h⟩ := Option.bind_eq_some_iff.1 h
  obtain ⟨colon, hcolon, h⟩ := Option.bind_eq_some_iff.1 h
  obtain ⟨⟨type, afterType⟩, htype, h⟩ := Option.bind_eq_some_iff.1 h
  obtain ⟨-, rfl⟩ := Prod.mk.inj (Option.some.inj h)
  obtain ⟨opened, hopened, hsuffix⟩ := of_bind_word? hname
  refine ⟨opened, hopened, ?_⟩
  calc afterType <:+ dropBlanks colon := run?_isSuffix htype
    _ <:+ colon := dropBlanks_isSuffix colon
    _ <:+ rest := after?_dropBlanks_isSuffix hcolon
    _ <:+ afterName := parenthesized?_isSuffix hinside
    _ <:+ opened := hsuffix

private theorem isName_of_functionHeader? {previous : Option Char}
    {text name after : List Char}
    (h : functionHeader? previous text = some (name, after)) : IsName name := by
  obtain ⟨⟨word, rest⟩, hword, h⟩ := Option.bind_eq_some_iff.1 h
  obtain ⟨⟨inside, rest⟩, -, h⟩ := Option.bind_eq_some_iff.1 h
  obtain ⟨colon, -, h⟩ := Option.bind_eq_some_iff.1 h
  obtain ⟨⟨type, afterType⟩, -, h⟩ := Option.bind_eq_some_iff.1 h
  obtain ⟨rfl, -⟩ := Prod.mk.inj (Option.some.inj h)
  exact isName_of_bind_word? hword

theorem isName_of_mem_functionHeaders {code name : List Char}
    (h : name ∈ allMatches functionHeader? code) : IsName name := by
  obtain ⟨before, position, after, hfound⟩ := of_mem_allMatches h
  exact isName_of_functionHeader? hfound

/-! ## Call sites -/

namespace CallStyle

variable {style : CallStyle} {name : List Char}

theorem after?_isSuffix {marker text rest : List Char}
    (h : style.after? marker text = some rest) :
    rest <:+ text := by
  unfold CallStyle.after? at h
  split at h
  · exact afterAnyCase?_isSuffix h
  · exact Scan.after?_isSuffix h

theorem isAnchored_site? (hname : name ≠ []) (hsolid : IsSolid name) :
    IsAnchored (style.site? name) := by
  refine isAnchored_of_marker (style.readsMarker_after? hname hsolid) ?_
  intro previous text found after h
  unfold site? at h
  split at h
  · obtain ⟨opened, hopened, hparentheses⟩ := Option.bind_eq_some_iff.1 h
    exact ⟨opened, hopened, parenthesized?_isSuffix hparentheses⟩
  · contradiction

theorem isAnchored_dividingSite? (hname : name ≠ []) (hsolid : IsSolid name) :
    IsAnchored (style.dividingSite? name) where
  solid := by
    intro previous c rest after found h
    obtain ⟨⟨argument, after⟩, hsite, -⟩ := Option.bind_eq_some_iff.1 h
    exact (isAnchored_site? hname hsolid).solid hsite
  suffix := by
    intro previous c rest after found h
    obtain ⟨⟨argument, after⟩, hsite, h⟩ := Option.bind_eq_some_iff.1 h
    obtain ⟨divisor, -, h⟩ := Option.bind_eq_some_iff.1 h
    obtain ⟨-, rfl⟩ := Prod.mk.inj (Option.some.inj h)
    exact (isAnchored_site? hname hsolid).suffix hsite

theorem isAnchored_declaration? (hkeyword : style.keyword.toList ≠ [])
    (hsolid : IsSolid style.keyword.toList) :
    IsAnchored (style.declaration? name) := by
  refine isAnchored_of_marker (style.readsMarker_after? hkeyword hsolid) ?_
  intro previous text found after h
  unfold declaration? at h
  split at h
  · obtain ⟨blanks, hblanks, h⟩ := Option.bind_eq_some_iff.1 h
    obtain ⟨afterName, hafterName, h⟩ := Option.bind_eq_some_iff.1 h
    obtain ⟨rest, hrest, h⟩ := Option.bind_eq_some_iff.1 h
    obtain ⟨-, rfl⟩ := Prod.mk.inj (Option.some.inj h)
    obtain ⟨opened, hopened, hsuffix⟩ := Option.bind_eq_some_iff.1 hblanks
    refine ⟨opened, hopened, ?_⟩
    calc rest <:+ afterName := Scan.after?_dropBlanks_isSuffix hrest
      _ <:+ blanks := CallStyle.after?_isSuffix hafterName
      _ <:+ opened := dropBlanks?_isSuffix hsuffix
  · contradiction

end CallStyle

end SnippetGrowth.Scan
