import SnippetGrowth.Proofs.Recognisers
import SnippetGrowth.Proofs.Searches

/-!
# Calls and headers of a function

A call is the whole word of a name, blanks, and an argument in parentheses
that reaches to the first closing one.  It divides if the argument ends in a
division by a numeral.  A header is the whole word `def`, blanks, the name,
blanks and an opening parenthesis.  This is what the recognisers of the style
with definitions find; two headers never overlap, but calls may.
-/

namespace SnippetGrowth.Scan

open Text

/-! ## Texts in words and blanks -/

def EndsWord (before : List Char) : Prop :=
  ∀ c ∈ before.getLast?, isWord c = false

theorem endsWord_iff {before : List Char} :
    EndsWord before ↔ before.getLast?.any isWord = false := by
  rw [EndsWord]
  cases before.getLast? <;> simp

theorem EndsWord.of_append {front more : List Char} (h : EndsWord (front ++ more))
    (hne : more ≠ []) : EndsWord more := by
  intro c hc
  exact h c (by rwa [List.getLast?_append_of_ne_nil _ hne])

theorem wordBoundary_eq_true_iff {before text : List Char}
    (h : text.head?.any isWord = true) :
    wordBoundary before.getLast? text.head? = true ↔ EndsWord before := by
  rw [wordBoundary, h, endsWord_iff, bne_iff_ne, Ne, Bool.not_eq_true]

theorem head?_any_isWord {name : List Char} (hname : IsName name)
    (rest : List Char) :
    (name ++ rest).head?.any isWord = true := by
  obtain ⟨c, name, rfl⟩ := List.exists_cons_of_ne_nil hname.ne_nil
  exact hname.isWord_of_mem c List.mem_cons_self

theorem isBlank_eq_false_of_isName {name : List Char} (hname : IsName name)
    {c : Char} (hc : c ∈ name) : isBlank c = false := by
  cases hblank : isBlank c with
  | false => rfl
  | true =>
      have hword := hname.isWord_of_mem c hc
      rw [isWord_eq_false_of_isBlank hblank] at hword
      contradiction

theorem isName_iff {name : List Char} :
    IsName name ↔ name ≠ [] ∧ name.all isWord = true := by
  rw [List.all_eq_true]
  exact ⟨fun h => ⟨h.ne_nil, h.isWord_of_mem⟩, fun h => ⟨h.1, h.2⟩⟩

instance (name : List Char) : Decidable (IsName name) :=
  decidable_of_iff' _ isName_iff

theorem isName_def : IsName "def".toList := by decide

theorem isName_fed : IsName "fed".toList := by decide

theorem IsName.head?_append {name : List Char} (h : IsName name)
    (rest : List Char) :
    ∀ c ∈ (name ++ rest).head?, isBlank c = false := by
  obtain ⟨c, tail, rfl⟩ := List.exists_cons_of_ne_nil h.ne_nil
  rintro _ ⟨⟩
  exact isBlank_eq_false_of_isName h List.mem_cons_self

theorem after?_dropBlanks_eq_some_iff {mark : Char} (hmark : isBlank mark = false)
    {text rest : List Char} :
    after? [mark] (dropBlanks text) = some rest ↔
      ∃ blanks, (∀ c ∈ blanks, isBlank c = true) ∧
        text = blanks ++ mark :: rest := by
  rw [after?_eq_some_iff]
  constructor
  · intro h
    refine ⟨text.takeWhile isBlank, fun c => List.mem_takeWhile_imp, ?_⟩
    rw [← List.singleton_append, ← h]
    exact List.takeWhile_append_dropWhile.symm
  · rintro ⟨blanks, hblanks, rfl⟩
    exact dropBlanks_append hblanks (by rintro _ ⟨⟩; exact hmark)

theorem head?_blanks_append {blanks : List Char}
    (h : ∀ c ∈ blanks, isBlank c = true) {mark : Char}
    (hmark : isWord mark = false) (rest : List Char) :
    ∀ c ∈ (blanks ++ mark :: rest).head?, isWord c = false := by
  cases blanks with
  | nil =>
      rintro c ⟨⟩
      exact hmark
  | cons d blanks =>
      rintro c ⟨⟩
      exact isWord_eq_false_of_isBlank (h _ List.mem_cons_self)

/-- Whether a name stands at a place of a text with no word character on either side. -/
def IsWholeWord (name code : List Char) (place : Nat) : Prop :=
  ∃ before after, code = before ++ (name ++ after) ∧ before.length = place ∧
    EndsWord before ∧
    ∀ c ∈ after.head?, isWord c = false

/-! ## Calls -/

/-- Whether a call of a name starts at a place of a text and stops behind the
first parenthesis that closes its argument. -/
def IsCall (name code : List Char) (start : Nat) (argument : List Char)
    (stop : Nat) : Prop :=
  ∃ before blanks after,
    code = before ++ (name ++ (blanks ++ '(' :: (argument ++ ')' :: after))) ∧
    before.length = start ∧ EndsWord before ∧ (∀ c ∈ blanks, isBlank c = true) ∧
    ')' ∉ argument ∧ stop + after.length = code.length

/-- Whether an argument ends in a division by the number that some digits write. -/
def DividesBy (argument digits : List Char) : Prop :=
  ∃ front gap, argument = front ++ '/' :: (gap ++ digits) ∧
    (∀ c ∈ gap, isBlank c = true) ∧
    digits ≠ [] ∧ ∀ c ∈ digits, isDigit c = true

def IsDividingCall (name code : List Char) (start : Nat) (digits : List Char)
    (stop : Nat) :
    Prop :=
  ∃ argument, IsCall name code start argument stop ∧ DividesBy argument digits

variable {name code : List Char}

theorem IsCall.isWholeWord {start stop : Nat} {argument : List Char}
    (h : IsCall name code start argument stop) : IsWholeWord name code start := by
  obtain ⟨before, blanks, after, hcode, hstart, hbefore, hblanks, -⟩ := h
  exact ⟨before, _, hcode, hstart, hbefore,
    head?_blanks_append hblanks (by decide) _⟩

private theorem site?_eq_some_iff (hname : IsName name)
    {before text argument after : List Char} :
    definitionStyle.site? name before.getLast? text = some (argument, after) ↔
      EndsWord before ∧ ∃ blanks, (∀ c ∈ blanks, isBlank c = true) ∧
        ')' ∉ argument ∧
        text = name ++ (blanks ++ '(' :: (argument ++ ')' :: after)) := by
  constructor
  · intro h
    unfold CallStyle.site? at h
    split at h
    · next hboundary =>
        obtain ⟨opened, hopened, hargument⟩ := Option.bind_eq_some_iff.1 h
        obtain ⟨blanks, hblanks, hclosing, rfl⟩ :=
          parenthesized?_eq_some_iff.1 hargument
        obtain rfl := after?_eq_some_iff.1 hopened
        exact ⟨(wordBoundary_eq_true_iff (head?_any_isWord hname _)).1 hboundary,
          blanks, hblanks, hclosing, rfl⟩
    · contradiction
  · rintro ⟨hbefore, blanks, hblanks, hclosing, rfl⟩
    have hopened : definitionStyle.after? name
        (name ++ (blanks ++ '(' :: (argument ++ ')' :: after))) =
          some (blanks ++ '(' :: (argument ++ ')' :: after)) :=
            after?_eq_some_iff.2 rfl
    rw [CallStyle.site?,
      if_pos ((wordBoundary_eq_true_iff (head?_any_isWord hname _)).2 hbefore),
      hopened]
    exact parenthesized?_eq_some_iff.2 ⟨blanks, hblanks, hclosing, rfl⟩

theorem foundAt_site?_iff (hname : IsName name) {start stop : Nat}
    {argument : List Char} :
    FoundAt (definitionStyle.site? name) code start argument stop ↔
      IsCall name code start argument stop := by
  constructor
  · rintro ⟨before, text, after, rfl, hstart, -, hfound, hstop⟩
    obtain ⟨hbefore, blanks, hblanks, hclosing, rfl⟩ :=
      (site?_eq_some_iff hname).1 hfound
    exact ⟨before, blanks, after, rfl, hstart, hbefore, hblanks, hclosing, hstop⟩
  · rintro ⟨before, blanks, after, rfl, hstart, hbefore, hblanks, hclosing, hstop⟩
    exact ⟨before, _, after, rfl, hstart, by simp,
      (site?_eq_some_iff hname).2 ⟨hbefore, blanks, hblanks, hclosing, rfl⟩,
      hstop⟩

theorem divisor?_eq_some_iff {argument digits : List Char} :
    definitionStyle.divisor? argument = some digits ↔
      DividesBy argument digits := by
  constructor
  · intro h
    obtain ⟨⟨run, rest⟩, hrun, h⟩ := Option.bind_eq_some_iff.1 h
    obtain ⟨front, hfront, h⟩ := Option.bind_eq_some_iff.1 h
    cases h
    obtain ⟨hne, hdigits, hreverse⟩ := of_run?_eq_some hrun
    have hdivider : after? ['/'] (dropBlanks rest) = some front := hfront
    obtain ⟨gap, hgap, rfl⟩ :=
      (after?_dropBlanks_eq_some_iff (by decide)).1 hdivider
    refine ⟨front.reverse, gap.reverse, ?_, ?_, by simpa using hne, ?_⟩
    · rw [← List.reverse_reverse argument, hreverse]
      simp
    · intro c hc
      exact hgap c (List.mem_reverse.1 hc)
    · intro c hc
      exact hdigits c (List.mem_reverse.1 hc)
  · rintro ⟨front, gap, rfl, hgap, hne, hdigits⟩
    have hreverse : (front ++ '/' :: (gap ++ digits)).reverse =
        digits.reverse ++ (gap.reverse ++ '/' :: front.reverse) := by simp
    have hhead : ∀ c ∈ (gap.reverse ++ '/' :: front.reverse).head?,
        isDigit c = false := by
      cases hcases : gap.reverse with
      | nil =>
          rintro c ⟨⟩
          decide
      | cons d blanks =>
          rintro c ⟨⟩
          exact isDigit_eq_false_of_isBlank
            (hgap _ (List.mem_reverse.1 (hcases ▸ List.mem_cons_self)))
    have hrun : run? isDigit (front ++ '/' :: (gap ++ digits)).reverse =
        some (digits.reverse, gap.reverse ++ '/' :: front.reverse) := by
      rw [hreverse]
      exact run?_eq_of_inside (by simpa using hne)
        (fun c hc => hdigits c (List.mem_reverse.1 hc)) hhead
    have hfront : definitionStyle.after? definitionStyle.divider.toList.reverse
        (dropBlanks (gap.reverse ++ '/' :: front.reverse)) = some front.reverse :=
      (after?_dropBlanks_eq_some_iff (by decide)).2
        ⟨gap.reverse, fun c hc => hgap c (List.mem_reverse.1 hc), rfl⟩
    unfold CallStyle.divisor?
    rw [hrun]
    simp only [Option.bind_eq_bind, Option.bind_some, hfront,
      List.reverse_reverse]

theorem foundAt_dividingSite?_iff (hname : IsName name) {start stop : Nat}
    {digits : List Char} :
    FoundAt (definitionStyle.dividingSite? name) code start digits stop ↔
      IsDividingCall name code start digits stop := by
  constructor
  · rintro ⟨before, text, after, htext, hstart, hne, hfound, hstop⟩
    obtain ⟨⟨argument, rest⟩, hsite, hfound⟩ := Option.bind_eq_some_iff.1 hfound
    obtain ⟨divisor, hdivisor, hfound⟩ := Option.bind_eq_some_iff.1 hfound
    cases hfound
    exact ⟨argument, (foundAt_site?_iff hname).1 ⟨before, text, after, htext,
      hstart, hne, hsite, hstop⟩, divisor?_eq_some_iff.1 hdivisor⟩
  · rintro ⟨argument, hcall, hdivides⟩
    obtain ⟨before, text, after, htext, hstart, hne, hsite, hstop⟩ :=
      (foundAt_site?_iff hname).2 hcall
    refine ⟨before, text, after, htext, hstart, hne, ?_, hstop⟩
    rw [CallStyle.dividingSite?, hsite]
    simp only [Option.bind_eq_bind, Option.bind_some,
      divisor?_eq_some_iff.2 hdivides]

/-! ## Headers -/

/-- Whether a header of the definition of a name starts at a place of a text,
has the name at another place, and stops behind its opening parenthesis. -/
def IsDefinitionHeader (name code : List Char) (start place stop : Nat) : Prop :=
  ∃ before gap blanks after,
    code = before ++
      ("def".toList ++ (gap ++ (name ++ (blanks ++ '(' :: after)))) ∧
    before.length = start ∧ start + 3 + gap.length = place ∧ EndsWord before ∧
    gap ≠ [] ∧
    (∀ c ∈ gap, isBlank c = true) ∧ (∀ c ∈ blanks, isBlank c = true) ∧
    stop + after.length = code.length

private theorem declaration?_eq_some_iff (hname : IsName name)
    {before text after : List Char} :
    definitionStyle.declaration? name before.getLast? text = some ((), after) ↔
      EndsWord before ∧ ∃ gap blanks, gap ≠ [] ∧ (∀ c ∈ gap, isBlank c = true) ∧
        (∀ c ∈ blanks, isBlank c = true) ∧
          text = "def".toList ++ (gap ++ (name ++ (blanks ++ '(' :: after))) := by
  constructor
  · intro h
    unfold CallStyle.declaration? at h
    split at h
    · next hboundary =>
        obtain ⟨rest, hrest, h⟩ := Option.bind_eq_some_iff.1 h
        obtain ⟨afterName, hafterName, h⟩ := Option.bind_eq_some_iff.1 h
        obtain ⟨opened, hopened, h⟩ := Option.bind_eq_some_iff.1 h
        cases h
        obtain ⟨afterKeyword, hkeyword, hskip⟩ := Option.bind_eq_some_iff.1 hrest
        have htext : text = "def".toList ++ afterKeyword :=
          after?_eq_some_iff.1 hkeyword
        obtain ⟨gap, hne, hgap, rfl⟩ := dropBlanks?_eq_some hskip
        obtain rfl : rest = name ++ afterName := after?_eq_some_iff.1 hafterName
        obtain ⟨blanks, hblanks, rfl⟩ :=
          (after?_dropBlanks_eq_some_iff (by decide)).1 hopened
        subst htext
        exact ⟨(wordBoundary_eq_true_iff (head?_any_isWord isName_def _)).1
          hboundary, gap, blanks, hne, hgap, hblanks, rfl⟩
    · contradiction
  · rintro ⟨hbefore, gap, blanks, hne, hgap, hblanks, rfl⟩
    have hboundary := (wordBoundary_eq_true_iff (head?_any_isWord isName_def
      (gap ++ (name ++ (blanks ++ '(' :: after))))).2 hbefore
    have hkeyword : definitionStyle.after? definitionStyle.keyword.toList
        ("def".toList ++ (gap ++ (name ++ (blanks ++ '(' :: after)))) =
          some (gap ++ (name ++ (blanks ++ '(' :: after))) :=
            after?_eq_some_iff.2 rfl
    have hafterName :
        definitionStyle.after? name (name ++ (blanks ++ '(' :: after)) =
        some (blanks ++ '(' :: after) := after?_eq_some_iff.2 rfl
    have hopened : after? ['('] (dropBlanks (blanks ++ '(' :: after)) =
        some after :=
      (after?_dropBlanks_eq_some_iff (by decide)).2 ⟨blanks, hblanks, rfl⟩
    rw [CallStyle.declaration?, if_pos hboundary, hkeyword]
    simp only [Option.bind_eq_bind, Option.bind_some,
      dropBlanks?_append hgap (hname.head?_append _) hne, hafterName, hopened]

theorem foundAt_declaration?_iff (hname : IsName name) {start stop : Nat} :
    FoundAt (definitionStyle.declaration? name) code start () stop ↔
      ∃ place, IsDefinitionHeader name code start place stop := by
  constructor
  · rintro ⟨before, text, after, rfl, rfl, -, hfound, hstop⟩
    obtain ⟨hbefore, gap, blanks, hne, hgap, hblanks, rfl⟩ :=
      (declaration?_eq_some_iff hname).1 hfound
    exact ⟨_, before, gap, blanks, after, rfl, rfl, rfl, hbefore, hne, hgap,
      hblanks, hstop⟩
  · rintro ⟨place, before, gap, blanks, after, rfl, rfl, -, hbefore, hne, hgap,
      hblanks, hstop⟩
    exact ⟨before, _, after, rfl, rfl, by simp,
      (declaration?_eq_some_iff hname).2 ⟨hbefore, gap, blanks, hne, hgap,
        hblanks, rfl⟩, hstop⟩

/-! ## Headers do not overlap -/

theorem eq_append_of_word {word rest between text : List Char}
    (hword : ∀ c ∈ word, isWord c = true) (h : word ++ rest = between ++ text)
    (hne : between ≠ []) (hends : EndsWord between) :
    ∃ more, more ≠ [] ∧ EndsWord more ∧ between = word ++ more ∧
      rest = more ++ text := by
  have hlast : between.getLast hne ∉ word := by
    intro hmem
    have hfalse := hends _ (List.getLast?_eq_some_getLast hne)
    rw [hword _ hmem] at hfalse
    contradiction
  rcases List.append_eq_append_iff.1 h with ⟨more, rfl, hrest⟩ | ⟨more, hmore, -⟩
  · have hnonempty : more ≠ [] := by
      rintro rfl
      exact hlast (by simp)
    exact ⟨more, hnonempty, hends.of_append hnonempty, rfl, hrest⟩
  · refine absurd ?_ hlast
    rw [hmore]
    exact List.mem_append_left _ (List.getLast_mem hne)

private theorem eq_append_of_blanks {blanks rest between text : List Char}
    {c : Char} (hblanks : ∀ c ∈ blanks, isBlank c = true)
    (h : blanks ++ rest = between ++ c :: text) (hc : isBlank c = false) :
    ∃ more, between = blanks ++ more ∧ rest = more ++ c :: text := by
  rcases List.append_eq_append_iff.1 h with
    ⟨more, rfl, hrest⟩ | ⟨more, hmore, hrest⟩
  · exact ⟨more, rfl, hrest⟩
  · cases more with
    | nil =>
        rw [List.append_nil] at hmore
        exact ⟨[], by rw [hmore, List.append_nil], hrest.symm⟩
    | cons d more =>
        obtain ⟨rfl, -⟩ := List.cons.inj hrest
        have hblank := hblanks c (by rw [hmore]; simp)
        rw [hc] at hblank
        contradiction

private theorem name_append_ne_keyword (hname : IsName name)
    {gap blanks rest text : List Char} (hgap : gap ≠ [])
    (hgapBlank : ∀ c ∈ gap, isBlank c = true)
    (hblanks : ∀ c ∈ blanks, isBlank c = true) :
    name ++ (blanks ++ '(' :: rest) ≠
      "def".toList ++ (gap ++ (name ++ text)) := by
  intro h
  have hnext : ∀ c ∈ (gap ++ (name ++ text)).head?, isWord c = false := by
    obtain ⟨d, gap, rfl⟩ := List.exists_cons_of_ne_nil hgap
    rintro c ⟨⟩
    exact isWord_eq_false_of_isBlank (hgapBlank _ List.mem_cons_self)
  have hspan := span_eq_of_inside hname.isWord_of_mem
    (head?_blanks_append hblanks (show isWord '(' = false by decide) rest)
  rw [h, span_eq_of_inside isName_def.isWord_of_mem hnext] at hspan
  obtain ⟨hkeyword, hrest⟩ := Prod.mk.inj hspan
  have hdrop := dropBlanks_append hgapBlank (hname.head?_append text)
  rw [hrest, dropBlanks_append hblanks (by rintro _ ⟨⟩; decide),
    ← hkeyword] at hdrop
  exact absurd (List.cons.inj hdrop).1 (by decide)

theorem IsDefinitionHeader.isWholeWord {start place stop : Nat}
    (h : IsDefinitionHeader name code start place stop) :
    IsWholeWord name code place := by
  obtain ⟨before, gap, blanks, after, rfl, rfl, rfl, -, hne, hgap, hblanks, -⟩ :=
    h
  have hdef : "def".toList.length = 3 := by decide
  refine ⟨before ++ ("def".toList ++ gap), blanks ++ '(' :: after,
    by simp, ?_, ?_, head?_blanks_append hblanks (by decide) after⟩
  · simp only [List.length_append, hdef, Nat.add_assoc]
  · rw [EndsWord, List.getLast?_append_of_ne_nil _ (by simp),
      List.getLast?_append_of_ne_nil _ hne]
    intro c hc
    exact isWord_eq_false_of_isBlank (hgap c (List.mem_of_getLast? hc))

theorem IsDefinitionHeader.stop_le (hname : IsName name)
    {start place stop other otherPlace otherStop : Nat}
    (h : IsDefinitionHeader name code start place stop)
    (hother : IsDefinitionHeader name code other otherPlace otherStop)
    (hlt : start < other) :
    stop ≤ other := by
  obtain ⟨before, gap, blanks, after, rfl, rfl, -, -, -, hgap, hblanks, hstop⟩ :=
    h
  obtain ⟨front, otherGap, otherBlanks, otherAfter, hcode, rfl, -, hfront, hne,
      hotherGap, -, -⟩ :=
    hother
  rcases List.append_eq_append_iff.1 hcode with
    ⟨between, rfl, htext⟩ | ⟨more, rfl, -⟩
  · have hbetween : between ≠ [] := by
      rintro rfl
      simp at hlt
    obtain ⟨afterKeyword, -, hends, rfl, hgapText⟩ := eq_append_of_word
      isName_def.isWord_of_mem htext hbetween (hfront.of_append hbetween)
    obtain ⟨fromName, rfl, hnameText⟩ :=
      eq_append_of_blanks hgap hgapText (by decide)
    have hfromName : fromName ≠ [] := by
      rintro rfl
      exact name_append_ne_keyword hname hne hotherGap hblanks hnameText
    obtain ⟨afterName, -, -, rfl, hblanksText⟩ :=
      eq_append_of_word hname.isWord_of_mem hnameText
      hfromName (hends.of_append hfromName)
    obtain ⟨opening, rfl, hopening⟩ :=
      eq_append_of_blanks hblanks hblanksText (by decide)
    cases opening with
    | nil => exact absurd (List.cons.inj hopening).1 (by decide)
    | cons c inside =>
        obtain ⟨rfl, rfl⟩ := List.cons.inj hopening
        simp only [List.length_append, List.length_cons] at hstop ⊢
        omega
  · rw [List.length_append] at hlt
    omega

theorem IsDefinitionHeader.place_eq (hname : IsName name) {start place stop : Nat}
    {otherPlace otherStop : Nat}
    (h : IsDefinitionHeader name code start place stop)
    (hother : IsDefinitionHeader name code start otherPlace otherStop) :
    place = otherPlace := by
  obtain ⟨before, gap, blanks, after, rfl, rfl, rfl, -, -, hgap, -, -⟩ := h
  obtain ⟨front, otherGap, otherBlanks, otherAfter, hcode, hlength, rfl, -, -,
      hotherGap, -, -⟩ :=
    hother
  obtain ⟨rfl, hrest⟩ := List.append_inj hcode hlength.symm
  have hnames := List.append_cancel_left hrest
  have hfromName :=
    dropBlanks_append hgap (hname.head?_append (blanks ++ '(' :: after))
  rw [hnames, dropBlanks_append hotherGap (hname.head?_append _)] at hfromName
  rw [hfromName] at hnames
  rw [List.append_cancel_right hnames]

theorem IsDefinitionHeader.lt_stop {start place stop : Nat}
    (h : IsDefinitionHeader name code start place stop) :
    start < place ∧ place < stop := by
  obtain ⟨before, gap, blanks, after, rfl, rfl, rfl, -, -, -, -, hstop⟩ := h
  have hkeyword : "def".toList.length = 3 := by decide
  simp only [List.length_append, List.length_cons, hkeyword] at hstop
  omega

theorem IsDefinitionHeader.stop_le_length {start place stop : Nat}
    (h : IsDefinitionHeader name code start place stop) : stop ≤ code.length := by
  obtain ⟨before, gap, blanks, after, -, -, -, -, -, -, -, hstop⟩ := h
  omega

theorem IsDefinitionHeader.start_eq (hname : IsName name) {start place stop : Nat}
    {other otherStop : Nat} (h : IsDefinitionHeader name code start place stop)
    (hother : IsDefinitionHeader name code other place otherStop) :
    start = other := by
  have hspan := h.lt_stop
  have hotherSpan := hother.lt_stop
  rcases Nat.lt_trichotomy start other with hlt | heq | hlt
  · have hstop := h.stop_le hname hother hlt
    omega
  · exact heq
  · have hstop := hother.stop_le hname h hlt
    omega

end SnippetGrowth.Scan
