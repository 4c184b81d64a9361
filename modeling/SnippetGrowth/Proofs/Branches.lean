import Mathlib.Combinatorics.Enumerative.DoubleCounting
import SnippetGrowth.Proofs.Outcome
import SnippetGrowth.Proofs.SelfCalls

/-!
# The branches of an inferred recurrence

The leftmost dividing call gives the reduction factor.  The branches are the
calls that a sweep takes, less the headers.  A sweep misses the calls inside
the argument of another call, and a header need not be a call, so there are at
most as many branches as calls outside the headers.
-/

namespace SnippetGrowth.Scan

open Text

variable {name code : List Char}

/-! ## Places -/

def IsCallPlace (name code : List Char) (place : Nat) : Prop :=
  ∃ argument stop, IsCall name code place argument stop

def IsHeaderPlace (name code : List Char) (place : Nat) : Prop :=
  ∃ start stop, IsDefinitionHeader name code start place stop

private theorem isCallPlace_iff {place : Nat} :
    IsCallPlace name code place ↔
      (code.take place).getLast?.any isWord = false ∧
        ((after? name (code.drop place)).bind parenthesized?).isSome = true := by
  rw [← endsWord_iff, Option.isSome_iff_exists]
  constructor
  · rintro ⟨argument, stop, before, blanks, after, rfl, rfl, hbefore, hblanks,
      hclosing, -⟩
    rw [List.take_left, List.drop_left]
    exact ⟨hbefore, (argument, after),
      Option.bind_eq_some_iff.2 ⟨_, after?_eq_some_iff.2 rfl,
        parenthesized?_eq_some_iff.2 ⟨blanks, hblanks, hclosing, rfl⟩⟩⟩
  · rintro ⟨hbefore, ⟨argument, after⟩, h⟩
    obtain ⟨opened, hopened, hargument⟩ := Option.bind_eq_some_iff.1 h
    obtain ⟨blanks, hblanks, hclosing, rfl⟩ :=
      parenthesized?_eq_some_iff.1 hargument
    have hdrop := after?_eq_some_iff.1 hopened
    have hlength := congrArg List.length hdrop
    simp only [List.length_drop, List.length_append, List.length_cons] at hlength
    refine ⟨argument, code.length - after.length, code.take place, blanks,
      after, ?_, List.length_take_of_le (by omega), hbefore, hblanks, hclosing,
      by omega⟩
    rw [← hdrop, List.take_append_drop]

instance (name code : List Char) : DecidablePred (IsCallPlace name code) :=
  fun _ => decidable_of_iff' _ isCallPlace_iff

/-- Whether a text ends in the whole word `def` and blanks. -/
def EndsKeyword (text : List Char) : Prop :=
  ∃ front gap, text = front ++ ("def".toList ++ gap) ∧ EndsWord front ∧ gap ≠ [] ∧
    ∀ c ∈ gap, isBlank c = true

private theorem endsKeyword_iff {text : List Char} :
    EndsKeyword text ↔
      (((dropBlanks? text.reverse).bind (after? "fed".toList)).any fun front =>
        !front.head?.any isWord) = true := by
  have hkeyword : "fed".toList = "def".toList.reverse := by decide
  constructor
  · rintro ⟨front, gap, rfl, hfront, hne, hgap⟩
    have hreverse : (front ++ ("def".toList ++ gap)).reverse =
        gap.reverse ++ ("fed".toList ++ front.reverse) := by simp [hkeyword]
    have hskip := dropBlanks?_append (fun c hc => hgap c (List.mem_reverse.1 hc))
      (isName_fed.head?_append front.reverse) (by simpa using hne)
    rw [hreverse, hskip, Option.bind_some, after?_eq_some_iff.2 rfl,
      Option.any_some, List.head?_reverse, endsWord_iff.1 hfront]
    rfl
  · intro h
    cases hfound : (dropBlanks? text.reverse).bind (after? "fed".toList) with
    | none =>
        rw [hfound] at h
        contradiction
    | some front =>
        rw [hfound, Option.any_some, Bool.not_eq_true'] at h
        obtain ⟨rest, hskip, hrest⟩ := Option.bind_eq_some_iff.1 hfound
        obtain ⟨gap, hne, hgap, hreverse⟩ := dropBlanks?_eq_some hskip
        refine ⟨front.reverse, gap.reverse, ?_, ?_, by simpa using hne,
          fun c hc => hgap c (List.mem_reverse.1 hc)⟩
        · rw [← List.reverse_reverse text, hreverse, after?_eq_some_iff.1 hrest,
            hkeyword]
          simp
        · rwa [endsWord_iff, List.getLast?_reverse]

private theorem isHeaderPlace_iff {place : Nat} :
    IsHeaderPlace name code place ↔
      EndsKeyword (code.take place) ∧
        ((after? name (code.drop place)).bind fun rest =>
          after? ['('] (dropBlanks rest)).isSome =
          true := by
  have hdef : "def".toList.length = 3 := by decide
  rw [Option.isSome_iff_exists]
  constructor
  · rintro ⟨start, stop, before, gap, blanks, after, rfl, rfl, rfl, hbefore,
      hne, hgap, hblanks, -⟩
    have hcode :
        before ++
          ("def".toList ++ (gap ++ (name ++ (blanks ++ '(' :: after)))) =
        (before ++ ("def".toList ++ gap)) ++
          (name ++ (blanks ++ '(' :: after)) := by simp
    have hplace : before.length + 3 + gap.length =
        (before ++ ("def".toList ++ gap)).length := by
      rw [List.length_append, List.length_append, hdef, Nat.add_assoc]
    rw [hcode, hplace, List.take_left, List.drop_left]
    exact ⟨⟨before, gap, rfl, hbefore, hne, hgap⟩, after,
      Option.bind_eq_some_iff.2
      ⟨_, after?_eq_some_iff.2 rfl,
        (after?_dropBlanks_eq_some_iff (by decide)).2 ⟨blanks, hblanks, rfl⟩⟩⟩
  · rintro ⟨⟨front, gap, htake, hfront, hne, hgap⟩, after, hafter⟩
    obtain ⟨opened, hopened, hopening⟩ := Option.bind_eq_some_iff.1 hafter
    obtain ⟨blanks, hblanks, rfl⟩ :=
      (after?_dropBlanks_eq_some_iff (by decide)).1 hopening
    have hdrop := after?_eq_some_iff.1 hopened
    have hcode :
        code = front ++
          ("def".toList ++ (gap ++ (name ++ (blanks ++ '(' :: after)))) := by
      rw [← List.take_append_drop place code, htake, hdrop]
      simp
    have hdropLength := congrArg List.length hdrop
    have htakeLength := congrArg List.length htake
    simp only [List.length_drop, List.length_append,
      List.length_cons] at hdropLength
    simp only [List.length_take, List.length_append, hdef] at htakeLength
    exact ⟨front.length, code.length - after.length, front, gap, blanks, after,
      hcode, rfl, by omega, hfront, hne, hgap, hblanks, by omega⟩

instance : DecidablePred EndsKeyword :=
  fun _ => decidable_of_iff' _ endsKeyword_iff

instance (name code : List Char) : DecidablePred (IsHeaderPlace name code) :=
  fun _ => decidable_of_iff' _ isHeaderPlace_iff

def callPlaces (name code : List Char) : Finset Nat :=
  (Finset.range code.length).filter (IsCallPlace name code)

def headerPlaces (name code : List Char) : Finset Nat :=
  (Finset.range code.length).filter (IsHeaderPlace name code)

theorem mem_callPlaces {place : Nat} :
    place ∈ callPlaces name code ↔ IsCallPlace name code place := by
  rw [callPlaces, Finset.mem_filter, Finset.mem_range, and_iff_right_iff_imp]
  rintro ⟨argument, stop, before, blanks, after, rfl, rfl, -⟩
  simp only [List.length_append, List.length_cons]
  omega

theorem mem_headerPlaces {place : Nat} :
    place ∈ headerPlaces name code ↔ IsHeaderPlace name code place := by
  rw [headerPlaces, Finset.mem_filter, Finset.mem_range, and_iff_right_iff_imp]
  rintro ⟨start, stop, h⟩
  have hspan := h.lt_stop
  have hstop := h.stop_le_length
  omega

/-! ## What the recognisers collect -/

theorem foundAt_site?_eq (hname : IsName name) (code : List Char) :
    FoundAt (definitionStyle.site? name) code = IsCall name code := by
  funext start argument stop
  exact propext (foundAt_site?_iff hname)

theorem foundAt_dividingSite?_eq (hname : IsName name) (code : List Char) :
    FoundAt (definitionStyle.dividingSite? name) code =
      IsDividingCall name code := by
  funext start digits stop
  exact propext (foundAt_dividingSite?_iff hname)

theorem isAdvancing_isCall (hname : IsName name) (code : List Char) :
    IsAdvancing (IsCall name code) := by
  rw [← foundAt_site?_eq hname]
  exact isAdvancing_foundAt
    (CallStyle.isAnchored_site? hname.ne_nil hname.solid) code

theorem sweeps_isCall (hname : IsName name) (code : List Char) :
    Sweeps (IsCall name code) 0
      (allMatches (definitionStyle.site? name) code) := by
  rw [← foundAt_site?_eq hname]
  exact sweeps_allMatches
    (CallStyle.isAnchored_site? hname.ne_nil hname.solid) code

theorem isAdvancing_isDividingCall (hname : IsName name) (code : List Char) :
    IsAdvancing (IsDividingCall name code) := by
  rw [← foundAt_dividingSite?_eq hname]
  exact isAdvancing_foundAt
    (CallStyle.isAnchored_dividingSite? hname.ne_nil hname.solid) code

theorem firstMatch?_dividingSite?_eq_none_iff (hname : IsName name) :
    firstMatch? (definitionStyle.dividingSite? name) code = none ↔
      ∀ start digits stop, ¬ IsDividingCall name code start digits stop := by
  rw [firstMatch?_eq_none_iff
    (CallStyle.isAnchored_dividingSite? hname.ne_nil hname.solid),
    foundAt_dividingSite?_eq hname]

theorem firstMatch?_dividingSite?_eq_some_iff (hname : IsName name)
    {digits : List Char} :
    firstMatch? (definitionStyle.dividingSite? name) code = some digits ↔
      Leftmost (IsDividingCall name code) digits := by
  rw [firstMatch?_eq_some_iff
    (CallStyle.isAnchored_dividingSite? hname.ne_nil hname.solid),
    foundAt_dividingSite?_eq hname]

private theorem exists_foundAt_declaration?_iff (hname : IsName name)
    {start : Nat} :
    (∃ found stop,
      FoundAt (definitionStyle.declaration? name) code start found stop) ↔
      ∃ place stop, IsDefinitionHeader name code start place stop := by
  constructor
  · rintro ⟨⟨⟩, stop, hfound⟩
    obtain ⟨place, h⟩ := (foundAt_declaration?_iff hname).1 hfound
    exact ⟨place, stop, h⟩
  · rintro ⟨place, stop, h⟩
    exact ⟨(), stop, (foundAt_declaration?_iff hname).2 ⟨place, h⟩⟩

/-- Each start of a header belongs to one place of the name, and each place to
one start. -/
theorem card_starts_eq (hname : IsName name) {starts : Finset Nat}
    (hstarts : ∀ start, start ∈ starts ↔
      ∃ place stop, IsDefinitionHeader name code start place stop) :
    starts.card = (headerPlaces name code).card := by
  refine Nat.le_antisymm
    (Finset.card_le_card_of_forall_subsingleton
      (fun start place => ∃ stop, IsDefinitionHeader name code start place stop)
        ?_ ?_)
    (Finset.card_le_card_of_forall_subsingleton
      (fun place start => ∃ stop, IsDefinitionHeader name code start place stop)
        ?_ ?_)
  · intro start hstart
    obtain ⟨place, stop, h⟩ := (hstarts start).1 hstart
    exact ⟨place, mem_headerPlaces.2 ⟨start, stop, h⟩, stop, h⟩
  · rintro place - start ⟨-, stop, h⟩ other ⟨-, otherStop, hother⟩
    exact h.start_eq hname hother
  · intro place hplace
    obtain ⟨start, stop, h⟩ := mem_headerPlaces.1 hplace
    exact ⟨start, (hstarts start).2 ⟨place, stop, h⟩, stop, h⟩
  · rintro start - place ⟨-, stop, h⟩ otherPlace ⟨-, otherStop, hother⟩
    exact h.place_eq hname hother

private theorem length_allMatches_declaration? (hname : IsName name)
    (code : List Char) :
    (allMatches (definitionStyle.declaration? name) code).length =
      (headerPlaces name code).card := by
  have anchored : IsAnchored (definitionStyle.declaration? name) :=
    CallStyle.isAnchored_declaration? (by decide) (by decide)
  obtain ⟨starts, hstarts⟩ :=
    exists_starts (definitionStyle.declaration? name) code
  have hheaders := fun start =>
    (hstarts start).trans (exists_foundAt_declaration?_iff hname)
  have hapart : ∀ start found stop,
      FoundAt (definitionStyle.declaration? name) code start found
      stop → 0 ≤ start → ∀ other ∈ starts, start < other → stop ≤ other := by
    intro start found stop hfound _ other hother hlt
    obtain ⟨place, h⟩ := (foundAt_declaration?_iff hname).1 hfound
    obtain ⟨otherPlace, otherStop, hother⟩ := (hheaders other).1 hother
    exact h.stop_le hname hother hlt
  rw [((sweeps_allMatches anchored code).length_eq_card_iff hstarts
      (isAdvancing_foundAt anchored code)).2 hapart,
    Finset.filter_true_of_mem fun start _ =>
      Nat.zero_le start, card_starts_eq hname hheaders]

theorem infer_of_leftmost (hname : IsName name) {digits : List Char}
    {calls : List (List Char)}
    (hdigits : Leftmost (IsDividingCall name code) digits)
    (hcalls : Sweeps (IsCall name code) 0 calls) :
    definitionStyle.infer code name = (readDigits digits).map fun reduction =>
      ⟨.whole (max (calls.length - (headerPlaces name code).card : Nat) 1),
        .whole reduction, .constant⟩ := by
  rw [CallStyle.infer, (firstMatch?_dividingSite?_eq_some_iff hname).2 hdigits,
    hcalls.eq (isAdvancing_isCall hname code) (sweeps_isCall hname code),
    ← length_allMatches_declaration? hname]
  dsimp only
  cases readDigits digits <;> rfl

theorem infer_of_none (hname : IsName name)
    (h : ∀ start digits stop, ¬ IsDividingCall name code start digits stop) :
    definitionStyle.infer code name = .ok ⟨.whole 1, .whole 1, .constant⟩ := by
  rw [CallStyle.infer, (firstMatch?_dividingSite?_eq_none_iff hname).2 h]

theorem exists_leftmost_iff (hname : IsName name) :
    (∃ digits, Leftmost (IsDividingCall name code) digits) ↔
      ∃ start digits stop, IsDividingCall name code start digits stop := by
  constructor
  · rintro ⟨digits, start, stop, here, -⟩
    exact ⟨start, digits, stop, here⟩
  · rintro ⟨start, digits, stop, here⟩
    cases hfirst : firstMatch? (definitionStyle.dividingSite? name) code with
    | none =>
        exact absurd here
          ((firstMatch?_dividingSite?_eq_none_iff hname).1 hfirst _ _ _)
    | some first =>
        exact ⟨first, (firstMatch?_dividingSite?_eq_some_iff hname).1 hfirst⟩

theorem readDigits_of_le {digits : List Char} (h : digits.length ≤ digitLimit) :
    readDigits digits = .ok (digitsValue digits) := by
  rw [readDigits, if_pos h]

theorem readDigits_eq_error_iff {digits : List Char} {failure : Failure} :
    readDigits digits = .error failure ↔
      digitLimit < digits.length ∧ failure = .tooLongToRead digits.length := by
  unfold readDigits
  split
  · next hshort => simp [Nat.not_lt.2 hshort]
  · next hlong => simp [Nat.not_le.1 hlong, eq_comm]

/-- A name and a text decide the recurrence. Without a dividing call it is the
one that reduces nothing; otherwise the leftmost one gives the reduction factor,
or fails if its digits are too many, and the branches are the calls that a sweep
takes, less the headers. All of these are whole words. -/
theorem infer_counts_swept_calls (hname : IsName name) (code : List Char) :
    ((∀ start digits stop, ¬ IsDividingCall name code start digits stop) →
      definitionStyle.infer code name = .ok ⟨.whole 1, .whole 1, .constant⟩) ∧
    ((∃ start digits stop, IsDividingCall name code start digits stop) →
      ∃ digits calls, Leftmost (IsDividingCall name code) digits ∧
        Sweeps (IsCall name code) 0 calls) ∧
    (∀ digits calls, Leftmost (IsDividingCall name code) digits →
      Sweeps (IsCall name code) 0 calls → digits.length ≤ digitLimit →
        definitionStyle.infer code name = .ok
          ⟨.whole (max (calls.length - (headerPlaces name code).card : Nat) 1),
            .whole (digitsValue digits), .constant⟩) ∧
    (∀ failure, definitionStyle.infer code name = .error failure ↔
      ∃ digits, Leftmost (IsDividingCall name code) digits ∧
        digitLimit < digits.length ∧
        failure = .tooLongToRead digits.length) ∧
    ∀ place, IsCallPlace name code place ∨ IsHeaderPlace name code place →
      IsWholeWord name code place := by
  have hcalls := sweeps_isCall hname code
  refine ⟨infer_of_none hname, ?_, ?_, ?_, ?_⟩
  · intro hdivides
    obtain ⟨digits, hdigits⟩ := (exists_leftmost_iff hname).2 hdivides
    exact ⟨digits, _, hdigits, hcalls⟩
  · intro digits calls hdigits hsweep hshort
    rw [infer_of_leftmost hname hdigits hsweep, readDigits_of_le hshort]
    rfl
  · intro failure
    constructor
    · intro failed
      by_cases hdivides : ∃ start digits stop,
        IsDividingCall name code start digits stop
      · obtain ⟨digits, hdigits⟩ := (exists_leftmost_iff hname).2 hdivides
        rw [infer_of_leftmost hname hdigits hcalls, map_eq_error_iff] at failed
        exact ⟨digits, hdigits, readDigits_eq_error_iff.1 failed⟩
      · push Not at hdivides
        rw [infer_of_none hname hdivides] at failed
        contradiction
    · rintro ⟨digits, hdigits, hlong⟩
      rw [infer_of_leftmost hname hdigits hcalls, map_eq_error_iff]
      exact readDigits_eq_error_iff.2 hlong
  · rintro place (⟨argument, stop, hcall⟩ | ⟨start, stop, hheader⟩)
    · exact hcall.isWholeWord
    · exact hheader.isWholeWord

def halvesSnippet : List Char :=
  "def f(n): return f(n/2) + elf(n) + f(n/2)".toList

theorem leftmost_halvesSnippet :
    Leftmost (IsDividingCall ['f'] halvesSnippet) ['2'] :=
  (firstMatch?_dividingSite?_eq_some_iff (by decide)).1 (by decide +kernel)

theorem infer_counts_swept_calls_halvesSnippet :
    IsName ['f'] ∧
      definitionStyle.infer halvesSnippet ['f'] =
        .ok ⟨.whole 2, .whole 2, .constant⟩ := by
  have hname : IsName ['f'] := by decide
  have hlength :
      (allMatches (definitionStyle.site? ['f']) halvesSnippet).length = 3 := by
    decide +kernel
  have hheaders : (headerPlaces ['f'] halvesSnippet).card = 1 := by decide +kernel
  obtain ⟨-, -, hinfer, -⟩ := infer_counts_swept_calls hname halvesSnippet
  refine ⟨hname, ?_⟩
  rw [hinfer _ _ leftmost_halvesSnippet (sweeps_isCall hname halvesSnippet)
    (by decide), hlength, hheaders]
  decide

/-! ## Calls outside the headers -/

private theorem max_card_sdiff {taken : Nat} {calls headers : Finset Nat}
    (h : taken ≤ calls.card) :
    max (taken - headers.card) 1 ≤ max 1 (calls \ headers).card ∧
      (max (taken - headers.card) 1 = max 1 (calls \ headers).card ↔
        (calls \ headers).card ≤ 1 ∨ taken = calls.card ∧ headers ⊆ calls) := by
  have hsplit := Finset.card_sdiff_add_card_inter calls headers
  have hinter :=
    Finset.card_le_card (Finset.inter_subset_right : calls ∩ headers ⊆ headers)
  have hsubset : headers ⊆ calls ↔ (calls ∩ headers).card = headers.card := by
    rw [← Finset.inter_eq_right]
    exact ⟨congrArg Finset.card,
      Finset.eq_of_subset_of_card_le Finset.inter_subset_right ∘ Eq.ge⟩
  rw [hsubset]
  omega

/-- Whether no call starts inside another one. -/
def CallsApart (name code : List Char) : Prop :=
  ∀ start argument stop, IsCall name code start argument stop →
    ∀ other ∈ callPlaces name code, start < other → stop ≤ other

theorem length_sweep (hname : IsName name) {calls : List (List Char)}
    (hcalls : Sweeps (IsCall name code) 0 calls) :
    calls.length ≤ (callPlaces name code).card ∧
      (calls.length = (callPlaces name code).card ↔ CallsApart name code) := by
  have hplaces : ∀ place, place ∈ callPlaces name code ↔
      ∃ argument stop, IsCall name code place argument stop :=
        fun _ => mem_callPlaces
  have hall : (callPlaces name code).filter (0 ≤ ·) = callPlaces name code :=
    Finset.filter_true_of_mem fun place _ => Nat.zero_le place
  have hle := hcalls.length_le_card hplaces (isAdvancing_isCall hname code)
  have hiff := hcalls.length_eq_card_iff hplaces (isAdvancing_isCall hname code)
  rw [hall] at hle hiff
  refine ⟨hle, hiff.trans ?_⟩
  constructor
  · intro h start argument stop hcall
    exact h start argument stop hcall (Nat.zero_le start)
  · intro h start argument stop hcall _
    exact h start argument stop hcall

/-- With a dividing call whose digits can be read, there are at most as many
branches as calls outside the headers, if at least one. There are fewer exactly
if two or more such calls are there and a call starts inside another one, or
some header is not closed. -/
theorem branches_count_calls_iff (hname : IsName name)
    (hdivides : ∃ start digits stop, IsDividingCall name code start digits stop) :
    ∃ digits, Leftmost (IsDividingCall name code) digits ∧
      (digitLimit < digits.length ∧
          definitionStyle.infer code name =
            .error (.tooLongToRead digits.length) ∨
        digits.length ≤ digitLimit ∧ ∃ branches : Nat,
          definitionStyle.infer code name =
            .ok ⟨.whole branches, .whole (digitsValue digits), .constant⟩ ∧
          branches ≤ max 1 (callPlaces name code \ headerPlaces name code).card ∧
          (branches = max 1 (callPlaces name code \ headerPlaces name code).card ↔
            (callPlaces name code \ headerPlaces name code).card ≤ 1 ∨
              CallsApart name code ∧
              headerPlaces name code ⊆ callPlaces name code)) := by
  obtain ⟨digits, hdigits⟩ := (exists_leftmost_iff hname).2 hdivides
  have hcalls := sweeps_isCall hname code
  have hinfer := infer_of_leftmost hname hdigits hcalls
  obtain ⟨hle, hapart⟩ := length_sweep hname hcalls
  refine ⟨digits, hdigits, ?_⟩
  rcases Nat.lt_or_ge digitLimit digits.length with hlong | hshort
  · refine .inl ⟨hlong, ?_⟩
    rw [hinfer, readDigits_eq_error_iff.2 ⟨hlong, rfl⟩]
    rfl
  · refine .inr ⟨hshort, _, ?_, (max_card_sdiff hle).1, ?_⟩
    · have hcast : ∀ n : Nat, ((max n 1 : Nat) : Int) = max (n : Int) 1 := by
        omega
      rw [hinfer, readDigits_of_le hshort, hcast]
      rfl
    · rw [(max_card_sdiff hle).2, hapart]

theorem branches_count_calls_iff_halvesSnippet :
    IsName ['f'] ∧
      (∃ start digits stop,
        IsDividingCall ['f'] halvesSnippet start digits stop) ∧
      CallsApart ['f'] halvesSnippet ∧
      (callPlaces ['f'] halvesSnippet \ headerPlaces ['f'] halvesSnippet).card =
        2 ∧
      definitionStyle.infer halvesSnippet ['f'] =
        .ok ⟨.whole 2, .whole 2, .constant⟩ := by
  have hname : IsName ['f'] := by decide
  have hdivides := (exists_leftmost_iff hname).1 ⟨_, leftmost_halvesSnippet⟩
  have hapart : CallsApart ['f'] halvesSnippet :=
    (length_sweep hname (sweeps_isCall hname halvesSnippet)).2.1
      (by decide +kernel)
  have hsubset :
      headerPlaces ['f'] halvesSnippet ⊆ callPlaces ['f'] halvesSnippet := by
    decide +kernel
  have hcard :
      (callPlaces ['f'] halvesSnippet \ headerPlaces ['f'] halvesSnippet).card =
        2 := by
    decide +kernel
  refine ⟨hname, hdivides, hapart, hcard, ?_⟩
  obtain ⟨digits, hdigits, hinferred⟩ := branches_count_calls_iff hname hdivides
  obtain rfl : digits = ['2'] :=
    hdigits.eq (isAdvancing_isDividingCall hname halvesSnippet)
    leftmost_halvesSnippet
  rcases hinferred with ⟨hlong, -⟩ | ⟨-, branches, hinfer, -, hbranches⟩
  · exact absurd hlong (by decide)
  · rw [hinfer, hbranches.2 (.inr ⟨hapart, hsubset⟩), hcard]
    decide

def nestedSnippet : List Char := "def f(n):\n    return f(f(n/2))".toList

/-- A call in the argument of another one is passed over with it. -/
theorem branches_miss_nested_call :
    IsName ['f'] ∧
      (∃ start digits stop,
        IsDividingCall ['f'] nestedSnippet start digits stop) ∧
      (callPlaces ['f'] nestedSnippet \ headerPlaces ['f'] nestedSnippet).card =
        2 ∧
      definitionStyle.infer nestedSnippet ['f'] =
        .ok ⟨.whole 1, .whole 2, .constant⟩ := by
  have hname : IsName ['f'] := by decide
  have hdigits : Leftmost (IsDividingCall ['f'] nestedSnippet) ['2'] :=
    (firstMatch?_dividingSite?_eq_some_iff hname).1 (by decide +kernel)
  exact ⟨hname, (exists_leftmost_iff hname).1 ⟨_, hdigits⟩, by decide +kernel, by
    decide +kernel⟩

end SnippetGrowth.Scan
