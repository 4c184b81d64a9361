import SnippetGrowth.Proofs.Limits
import SnippetGrowth.Proofs.RangeTimes
import SnippetGrowth.Proofs.SelfCalls
import SnippetGrowth.Proofs.UpdateClauses

/-!
# Steps of ranges

The text of a loop over a range ends for a scan at its first closing
parenthesis, and what stands before it in the parentheses is cut at every
comma.  The third argument is therefore judged as it stands only if no bracket
comes before its end.  A call in an argument may hide the step, and a comma
inside brackets may put another text in its place.
-/

namespace SnippetGrowth

open Text

namespace Scan

/-! ## Loops over ranges -/

def closingOf? : Char → Option Char
  | '(' => some ')'
  | '[' => some ']'
  | '\x7b' => some '\x7d'
  | _ => none

def isClosing (c : Char) : Bool := [')', ']', '\x7d'].contains c

/-- The brackets that have to close what is open behind a text, the innermost
first, unless a bracket closes something else or a comma stands outside all
brackets. -/
def openAfter? : List Char → List Char → Option (List Char)
  | opened, [] => some opened
  | opened, c :: rest =>
      match closingOf? c with
      | some closing => openAfter? (closing :: opened) rest
      | none =>
          if isClosing c then
            match opened with
            | closing :: outer =>
                if c = closing then openAfter? outer rest else none
            | [] => none
          else if c = ',' && opened.isEmpty then none
          else openAfter? opened rest

/-- Whether a text can stand as one argument of a range on one line, without a
further loop. -/
structure IsArgument (text : List Char) : Prop where
  bracketed : openAfter? [] text = some []
  visible : ∃ c ∈ text, isBlank c = false
  unbroken : '\n' ∉ text
  loopless : ∀ word ∈ ["for", "range"], occursIn word.toList text = false

def argumentsText (arguments : List (List Char)) : List Char :=
  ", ".toList.intercalate arguments

def rangeSnippet (counter : String) (arguments : List String) : String :=
  "for " ++ counter ++ " in range(" ++ ", ".intercalate arguments ++ "):"

def rangeText (counter more : List Char) : List Char :=
  "for ".toList ++
    (counter ++ ' ' :: ("in".toList ++ ' ' :: ("range(".toList ++ more)))

theorem toList_rangeSnippet (counter : String) (arguments : List String) :
    (rangeSnippet counter arguments).toList =
      rangeText counter.toList (argumentsText (arguments.map String.toList) ++
        ')' :: [':']) := by
  have htext : (rangeSnippet counter arguments).toList =
      "for ".toList ++ (counter.toList ++
      (" in range(".toList ++
          (argumentsText (arguments.map String.toList) ++ "):".toList))) := by
    simp only [rangeSnippet, argumentsText, String.toList_append,
      String.toList_intercalate, List.append_assoc]
  exact htext

theorem rangeText_closed (counter inside after : List Char) :
    rangeText counter (inside ++ ')' :: after) =
      rangeText counter (inside ++ [')']) ++ after := by
  simp only [rangeText, List.append_assoc, List.cons_append, List.nil_append]

theorem argumentsText_cons_cons (first second : List Char)
    (others : List (List Char)) :
    argumentsText (first :: second :: others) =
      first ++ ',' :: ' ' :: argumentsText (second :: others) := by
  simp [argumentsText, List.intercalate_cons_cons]

theorem argumentsText_singleton (argument : List Char) :
    argumentsText [argument] = argument := by
  simp [argumentsText]

theorem occursIn_argumentsText {word : List Char} (hword : word ≠ [])
    (hcomma : ',' ∉ word) (hblank : ' ' ∉ word) {arguments : List (List Char)}
    (h : ∀ argument ∈ arguments, occursIn word argument = false) :
    occursIn word (argumentsText arguments) = false := by
  have hempty : occursIn word [] = false := by
    obtain ⟨c, word, rfl⟩ := List.exists_cons_of_ne_nil hword
    rfl
  have hleading := occursIn_append_cons hword hblank []
  simp only [List.nil_append] at hleading
  induction arguments with
  | nil => exact hempty
  | cons first others ih =>
      obtain ⟨hfirst, hothers⟩ := List.forall_mem_cons.1 h
      cases others with
      | nil => rwa [argumentsText_singleton]
      | cons second others =>
          rw [argumentsText_cons_cons, occursIn_append_cons hword hcomma,
            hleading, hempty, hfirst, ih hothers]
          rfl

/-! ## Markers in front of a blank -/

def IsBlankFree (text : List Char) : Prop := ∀ c ∈ text, isBlank c = false

theorem IsName.isBlankFree {name : List Char} (h : IsName name) :
    IsBlankFree name :=
  fun _ => isBlank_eq_false_of_isName h

theorem after?_append_blank {marker front more rest : List Char}
    (hmarker : ' ' ∉ marker)
    (h : after? marker (front ++ ' ' :: more) = some rest) :
    ∃ tail, front = marker ++ tail ∧ rest = tail ++ ' ' :: more := by
  have htext := after?_eq_some_iff.1 h
  obtain ⟨tail, rfl⟩ := isPrefix_of_append_cons hmarker ⟨rest, htext.symm⟩
  rw [List.append_assoc] at htext
  exact ⟨tail, rfl, (List.append_cancel_left htext).symm⟩

theorem bind_word?_eq_some {marker front more name rest : List Char}
    (hmarker : ' ' ∉ marker) (hfront : IsBlankFree front)
    (h : ((after? marker (front ++ ' ' :: ("in".toList ++ ' ' :: more))).bind
      dropBlanks?).bind
      word? = some (name, rest)) : rest = ' ' :: more := by
  obtain ⟨opened, hopened, hword⟩ := Option.bind_eq_some_iff.1 h
  obtain ⟨behind, hbehind, hskip⟩ := Option.bind_eq_some_iff.1 hopened
  obtain ⟨tail, rfl, rfl⟩ := after?_append_blank hmarker hbehind
  cases tail with
  | nil =>
      have hin : dropBlanks? (' ' :: ("in".toList ++ ' ' :: more)) =
          some ("in".toList ++ ' ' :: more) := rfl
      have hrun : word? ("in".toList ++ ' ' :: more) =
          some ("in".toList, ' ' :: more) :=
        run?_eq_of_inside (by decide) (by simp; decide) (by simp; decide)
      rw [List.nil_append, hin] at hskip
      obtain rfl := Option.some.inj hskip
      rw [hrun] at hword
      exact (Prod.mk.inj (Option.some.inj hword)).2.symm
  | cons c tail =>
      have hc := hfront c (by simp)
      simp [dropBlanks?, hc] at hskip

/-! ## Searches through a loop -/

/-- Whether a recogniser reads a marker, blanks and a word, and finds nothing if
a range follows the word. -/
def PassesRange {α : Type} (marker : List Char) (recognise : Recogniser α) :
    Prop :=
  ∀ {previous : Option Char} {text : List Char} {find : α × List Char},
    recognise previous text = some find →
      ∃ name rest, ((after? marker text).bind dropBlanks?).bind word? =
        some (name, rest) ∧
        ∀ more, rest ≠ ' ' :: ("range(".toList ++ more)

theorem passesRange_rangeLoop? : PassesRange "for".toList rangeLoop? := by
  intro previous text find h
  obtain ⟨⟨name, rest⟩, hname, h⟩ := Option.bind_eq_some_iff.1 h
  obtain ⟨afterIn, hin, -⟩ := Option.bind_eq_some_iff.1 h
  refine ⟨name, rest, hname, ?_⟩
  rintro more rfl
  have hnone :
      (dropBlanks? (' ' :: ("range(".toList ++ more))).bind
        (after? "in".toList) =
      none := rfl
  rw [hnone] at hin
  contradiction

theorem passesRange_definition? : PassesRange "def".toList definition? := by
  intro previous text find h
  rw [definition?_eq] at h
  obtain ⟨⟨name, rest⟩, hname, h⟩ := Option.bind_eq_some_iff.1 h
  obtain ⟨opened, hopened, -⟩ := Option.bind_eq_some_iff.1 h
  refine ⟨name, rest, hname, ?_⟩
  rintro more rfl
  have hnone : parenthesized? (' ' :: ("range(".toList ++ more)) = none := rfl
  rw [hnone] at hopened
  contradiction

section

variable {α : Type} {marker : List Char} {recognise : Recogniser α}

theorem PassesRange.isPrefix (h : PassesRange marker recognise)
    {previous : Option Char} {text : List Char} {find : α × List Char}
    (hfind : recognise previous text = some find) :
    marker <+: text := by
  obtain ⟨name, rest, hname, -⟩ := h hfind
  obtain ⟨tail, htail, -⟩ := of_bind_word? hname
  exact ⟨tail, (after?_eq_some_iff.1 htail).symm⟩

theorem PassesRange.matchesFrom_counter (h : PassesRange marker recognise)
    (hblank : ' ' ∉ marker) {counter more : List Char}
    (hcounter : IsBlankFree counter)
    (habsent : occursIn marker
      (' ' :: ("in".toList ++ ' ' :: ("range(".toList ++ more))) = false)
    (previous : Option Char) :
    matchesFrom recognise previous 0
      (counter ++ ' ' :: ("in".toList ++ ' ' :: ("range(".toList ++ more))) =
        [] := by
  have hmissed : ∀ c later, c :: later <:+ counter →
      ∀ previous, recognise previous
      (c :: (later ++ ' ' :: ("in".toList ++ ' ' :: ("range(".toList ++ more)))) =
          none := by
    intro c later hlater previous
    rw [Option.eq_none_iff_forall_ne_some]
    intro find hfind
    obtain ⟨name, rest, hname, hrest⟩ := h hfind
    have hblankFree : IsBlankFree (c :: later) := fun d hd =>
      hcounter d (hlater.subset hd)
    exact hrest _ (bind_word?_eq_some hblank hblankFree hname)
  rw [matchesFrom_append_of_missed hmissed]
  exact matchesFrom_eq_nil_of_absent (fun hfind => h.isPrefix hfind) habsent _

end

theorem occursIn_behindCounter {word : List Char}
    (hword : word ∈ ["for".toList, "def".toList]) {more : List Char}
    (h : occursIn word more = false) :
    occursIn word (' ' :: ("in".toList ++ ' ' :: ("range(".toList ++ more))) =
      false := by
  have hshape : ∀ word ∈ ["for".toList, "def".toList], word ≠ [] ∧ ' ' ∉ word ∧
      '(' ∉ word ∧
      occursIn word [] = false ∧ occursIn word "in".toList = false ∧
        occursIn word "range".toList = false := by decide
  obtain ⟨hne, hblank, hopening, hempty, hin, hrange⟩ := hshape word hword
  have hleading := occursIn_append_cons hne hblank []
  have hmore : "range(".toList ++ more = "range".toList ++ '(' :: more := rfl
  simp only [List.nil_append] at hleading
  rw [hleading, occursIn_append_cons hne hblank, hmore,
    occursIn_append_cons hne hopening, hempty, hin, hrange, h]
  rfl

section

variable {counter more inside after : List Char}

theorem allMatches_definition?_rangeText (hcounter : IsBlankFree counter)
    (h : occursIn "def".toList more = false) :
    allMatches definition? (rangeText counter more) = [] := by
  have hfor : allMatches definition? (rangeText counter more) =
      matchesFrom definition? (some ' ') 0
      (counter ++ ' ' :: ("in".toList ++ ' ' :: ("range(".toList ++ more))) := rfl
  rw [hfor]
  exact passesRange_definition?.matchesFrom_counter (by decide) hcounter
    (occursIn_behindCounter (by simp) h) _

theorem opened_rangeText (hcounter : IsBlankFree counter) (hne : counter ≠ []) :
    (after? "for".toList (rangeText counter more)).bind dropBlanks? =
      some (counter ++
        ' ' :: ("in".toList ++ ' ' :: ("range(".toList ++ more))) := by
  obtain ⟨c, counter, rfl⟩ := List.exists_cons_of_ne_nil hne
  have hc : isBlank c = false := hcounter c List.mem_cons_self
  have hskipped : ∀ rest, dropBlanks (c :: rest) = c :: rest :=
    fun rest => dropBlanks_eq_self (by rintro _ ⟨⟩; exact hc)
  exact congrArg some (hskipped _)

theorem allMatches_rangeLoop?_eq_nil (hcounter : IsBlankFree counter)
    (hne : counter ≠ []) (hname : ¬ IsName counter)
    (h : occursIn "for".toList more = false) :
    allMatches rangeLoop? (rangeText counter more) = [] := by
  have hfor : ∀ rest, matchesFrom rangeLoop? (some 'f') 0 ("or ".toList ++ rest) =
      matchesFrom rangeLoop? (some ' ') 0 rest := fun _ => rfl
  have hmissed : rangeLoop? none (rangeText counter more) = none := by
    rw [Option.eq_none_iff_forall_ne_some]
    intro find hfind
    obtain ⟨⟨name, rest⟩, hword, hfind⟩ := Option.bind_eq_some_iff.1 hfind
    obtain ⟨afterIn, hin, -⟩ := Option.bind_eq_some_iff.1 hfind
    rw [opened_rangeText hcounter hne] at hword
    obtain ⟨-, hall, htext⟩ := of_run?_eq_some hword
    rcases List.append_eq_append_iff.1 htext with
      ⟨tail, rfl, -⟩ | ⟨tail, rfl, rfl⟩
    · exact hname ⟨hne, fun c hc => hall c (List.mem_append_left tail hc)⟩
    · cases tail with
      | nil => exact hname ⟨hne, by simpa using hall⟩
      | cons c tail =>
          have hc : isBlank c = false := hcounter c (by simp)
          simp [dropBlanks?, hc] at hin
  have htext : rangeText counter more = 'f' :: ("or ".toList ++
    (counter ++ ' ' :: ("in".toList ++ ' ' :: ("range(".toList ++ more)))) := rfl
  rw [htext] at hmissed ⊢
  rw [allMatches, matchesFrom_missed hmissed, hfor]
  exact passesRange_rangeLoop?.matchesFrom_counter (by decide) hcounter
    (occursIn_behindCounter (by simp) h) _

private theorem rangeLoop?_rangeText (hname : IsName counter) (hne : inside ≠ [])
    (hinside : ')' ∉ inside)
    (previous : Option Char) :
    rangeLoop? previous (rangeText counter (inside ++ ')' :: after)) =
      some (rangeText counter (inside ++ [')']), after) := by
  have hword :
      ((after? "for".toList (rangeText counter (inside ++ ')' :: after))).bind
      dropBlanks?).bind word? = some (counter,
        ' ' :: ("in".toList ++
            ' ' :: ("range(".toList ++ (inside ++ ')' :: after)))) := by
    rw [opened_rangeText hname.isBlankFree hname.ne_nil]
    exact run?_eq_of_inside hname.ne_nil hname.isWord_of_mem (by simp; decide)
  have hin : ∀ more, (dropBlanks? (' ' :: ("in".toList ++ ' ' :: more))).bind
      (after? "in".toList) = some (' ' :: more) := fun _ => rfl
  have hrange : ∀ more, (dropBlanks? (' ' :: ("range(".toList ++ more))).bind
      (after? "range".toList) = some ('(' :: more) := fun _ => rfl
  have hparentheses : parenthesized? ('(' :: (inside ++ ')' :: after)) =
      some (inside, after) :=
    parenthesized?_eq_some_iff.2 ⟨[], by simp, hinside, rfl⟩
  have hempty : inside.isEmpty = false := by simpa using hne
  unfold rangeLoop?
  rw [hword]
  simp only [Option.bind_eq_bind, Option.bind_some, hin, hrange, hparentheses,
    hempty, Bool.false_eq_true, if_false]
  rw [rangeText_closed, passed_append]

theorem allMatches_rangeLoop?_rangeText (hname : IsName counter)
    (hne : inside ≠ [])
    (hinside : ')' ∉ inside) (h : occursIn "for".toList after = false) :
    allMatches rangeLoop? (rangeText counter (inside ++ ')' :: after)) =
      [rangeText counter (inside ++ [')'])] := by
  have hfound : rangeLoop? none (rangeText counter (inside ++ ')' :: after)) =
      some (rangeText counter (inside ++ [')']), after) :=
    rangeLoop?_rangeText hname hne hinside none
  obtain ⟨front, hfront⟩ : ∃ front,
    rangeText counter (inside ++ [')']) = 'f' :: front := ⟨_, rfl⟩
  rw [rangeText_closed, hfront, List.cons_append] at hfound ⊢
  rw [allMatches, matchesFrom_found hfound,
    matchesFrom_eq_nil_of_absent
      (fun hfind => passesRange_rangeLoop?.isPrefix hfind) h]

private theorem rangeArguments?_eq_none {name : List Char}
    (h : ∀ c ∈ name, isWord c = true) (previous : Option Char) :
    rangeArguments? previous (name ++ ' ' :: ("in".toList ++ more)) = none := by
  rw [Option.eq_none_iff_forall_ne_some]
  intro find hfind
  obtain ⟨opened, hopened, hfind⟩ := Option.bind_eq_some_iff.1 hfind
  obtain ⟨arguments, harguments, -⟩ := Option.bind_eq_some_iff.1 hfind
  obtain ⟨tail, rfl, rfl⟩ := after?_append_blank (by decide) hopened
  cases tail with
  | nil =>
      have hnone :
          after? ['('] (dropBlanks (' ' :: ("in".toList ++ more))) = none := rfl
      exact absurd (hnone.symm.trans harguments)
        (Option.some_ne_none arguments).symm
  | cons d tail =>
      have hd : isWord d = true := h d (by simp)
      have hblank : isBlank d ≠ true := fun hblank => by
        simp [isWord_eq_false_of_isBlank hblank] at hd
      have hopening : '(' ≠ d := by
        rintro rfl
        exact absurd hd (by decide)
      simp [dropBlanks, hblank, after?, hopening] at harguments

private theorem firstMatch?_rangeArguments? (hname : IsName counter)
    (hinside : ')' ∉ inside) :
    firstMatch? rangeArguments? (rangeText counter (inside ++ [')'])) =
      some inside := by
  have hfor : ∀ rest, allMatches rangeArguments? ("for ".toList ++ rest) =
      matchesFrom rangeArguments? (some ' ') 0 rest := fun _ => rfl
  have hin : ∀ previous rest, matchesFrom rangeArguments? previous 0
      (' ' :: ("in".toList ++ ' ' :: rest)) =
          matchesFrom rangeArguments? (some ' ') 0 rest :=
    fun _ _ => rfl
  have hmissed : ∀ c later, c :: later <:+ counter →
      ∀ previous, rangeArguments? previous
      (c :: (later ++
        ' ' :: ("in".toList ++
          ' ' :: ("range(".toList ++ (inside ++ [')']))))) =
        none := fun c later hlater => by
    rw [← List.cons_append]
    exact rangeArguments?_eq_none fun d hd =>
      hname.isWord_of_mem d (hlater.subset hd)
  have hspan : (inside ++ [')']).span (· != ')') = (inside, [')']) := by
    refine span_eq_of_inside (fun c hc => ?_) (by simp)
    simpa using ne_of_mem_of_not_mem hc hinside
  have hrange : ∀ more,
      firstMatchFrom? rangeArguments? (some ' ') ("range(".toList ++ more) =
      some (more.span (· != ')')).1 := fun _ => rfl
  rw [firstMatch?_eq_head?, rangeText, hfor,
    matchesFrom_append_of_missed hmissed, hin, ← firstMatchFrom?_eq_head?,
    hrange, hspan]

theorem hasMultiplicativeStep_iff (hname : IsName counter)
    (hinside : ')' ∉ inside) :
    hasMultiplicativeStep (rangeText counter (inside ++ [')'])) = true ↔
      HoldsOperator ((split ',' inside)[2]?.getD []) := by
  rw [hasMultiplicativeStep, firstMatch?_rangeArguments? hname hinside,
    Option.map_some]
  rcases split ',' inside with _ | ⟨first, _ | ⟨second, _ | ⟨step, others⟩⟩⟩ <;>
    simp [HoldsOperator]

end

/-! ## The judged argument -/

/-- What stands at a place between the commas before the first closing
parenthesis. -/
def pieceAt (place : Nat) (arguments : List (List Char)) : List Char :=
  (split ',' (upToClosing (argumentsText arguments)))[place]?.getD []

private theorem holdsOperator_cons_blank {text : List Char} :
    HoldsOperator (' ' :: text) ↔ HoldsOperator text := by
  simp [HoldsOperator]

private theorem holdsOperator_split_blank (place : Nat) (text : List Char) :
    HoldsOperator ((split ',' (' ' :: text))[place]?.getD []) ↔
      HoldsOperator ((split ',' text)[place]?.getD []) := by
  obtain ⟨piece, pieces, hsplit⟩ :=
    List.exists_cons_of_ne_nil (split_ne_nil ',' text)
  cases place with
  | zero => simp [split, hsplit, holdsOperator_cons_blank]
  | succ place => simp [split, hsplit]

private theorem split_arguments_cons {first : List Char}
    (h : ',' ∉ first ∧ ')' ∉ first)
    (second : List Char) (others : List (List Char)) :
    split ',' (upToClosing (argumentsText (first :: second :: others))) =
      first :: split ','
        (' ' :: upToClosing (argumentsText (second :: others))) := by
  have hcomma : ∀ more, upToClosing (',' :: ' ' :: more) = ',' :: ' ' ::
      upToClosing more :=
    fun _ => rfl
  rw [argumentsText_cons_cons, upToClosing_append_of_not_mem h.2, hcomma,
    split_append_cons h.1]

private theorem split_argument {argument : List Char}
    (h : ',' ∉ argument ∧ ')' ∉ argument) :
    split ',' (upToClosing (argumentsText [argument])) = [argument] := by
  rw [argumentsText_singleton, upToClosing_of_not_mem h.2, split_of_not_mem h.1]

/-- An argument is judged as it stands if no comma and no closing parenthesis
stand in it or in an argument before it. -/
theorem holdsOperator_pieceAt_iff {place : Nat} {arguments : List (List Char)}
    (h : ∀ argument ∈ arguments.take (place + 1), ',' ∉ argument ∧
      ')' ∉ argument) :
    HoldsOperator (pieceAt place arguments) ↔
      ∃ argument, arguments[place]? = some argument ∧ HoldsOperator argument := by
  induction place generalizing arguments with
  | zero =>
      rcases arguments with _ | ⟨first, _ | ⟨second, others⟩⟩
      · simp [pieceAt, argumentsText, upToClosing, split, HoldsOperator]
      · rw [pieceAt, split_argument (h first (by simp))]
        simp
      · rw [pieceAt, split_arguments_cons (h first (by simp))]
        simp
  | succ place ih =>
      rcases arguments with _ | ⟨first, _ | ⟨second, others⟩⟩
      · simp [pieceAt, argumentsText, upToClosing, split, HoldsOperator]
      · rw [pieceAt, split_argument (h first (by simp))]
        simp [HoldsOperator]
      · have hlater : ∀ argument ∈ (second :: others).take (place + 1),
            ',' ∉ argument ∧ ')' ∉ argument := fun argument hargument =>
          h argument (List.mem_cons_of_mem first hargument)
        rw [pieceAt, split_arguments_cons (h first (by simp)),
          List.getElem?_cons_succ, holdsOperator_split_blank,
          List.getElem?_cons_succ]
        exact ih hlater

theorem upToClosing_argumentsText_ne_nil {first : List Char}
    (h : IsArgument first) (others : List (List Char)) :
    upToClosing (argumentsText (first :: others)) ≠ [] := by
  obtain ⟨c, hmem, -⟩ := h.visible
  cases first with
  | nil => simp at hmem
  | cons c first =>
      have hc : c ≠ ')' := by
        rintro rfl
        have hbracketed := h.bracketed
        simp [openAfter?, closingOf?, isClosing] at hbracketed
      cases others with
      | nil => simp [argumentsText_singleton, upToClosing, hc]
      | cons second others => simp [argumentsText_cons_cons, upToClosing, hc]

def HasOperatorStep (arguments : List String) : Prop :=
  ∃ step, arguments[2]? = some step ∧ HoldsOperator step.toList

theorem result_ofRangeLoop {loop judged : List Char}
    (h : hasMultiplicativeStep loop = true ↔ HoldsOperator judged) :
    ((ofRangeLoop loop).finding.result = .ofLabel "log n" ↔
      HoldsOperator judged) ∧
      ((ofRangeLoop loop).finding.result = .ofLabel "n" ↔
        ¬ HoldsOperator judged) := by
  have hother : Bound.ofLabel "log n" ≠ .ofLabel "n" := by decide
  rw [(ofRangeLoop_cases loop).2, ← h]
  cases hasMultiplicativeStep loop with
  | true => simp [hother]
  | false => simp [hother.symm]

/-! ## The loop of a snippet -/

section

variable {counter : List Char} {arguments : List (List Char)}

theorem occursIn_closedArguments {word : List Char}
    (hword : word ∈ ["for".toList, "def".toList])
    (h : ∀ argument ∈ arguments, occursIn word argument = false) :
    occursIn word (argumentsText arguments ++ ')' :: [':']) = false := by
  have hshape : ∀ word ∈ ["for".toList, "def".toList],
      word ≠ [] ∧ (',' ∉ word ∧ ' ' ∉ word ∧ ')' ∉ word) ∧
          occursIn word [':'] = false := by
    decide
  obtain ⟨hne, ⟨hcomma, hblank, hclosing⟩, hend⟩ := hshape word hword
  rw [occursIn_append_cons hne hclosing,
    occursIn_argumentsText hne hcomma hblank h, hend]
  rfl

private theorem allMatches_rangeLoop?_of_isName (hname : IsName counter)
    (hfilled : arguments ≠ []) (h : ∀ argument ∈ arguments, IsArgument argument) :
    ∃ loop, allMatches rangeLoop?
      (rangeText counter (argumentsText arguments ++ ')' :: [':'])) =
        [loop] ∧
      (hasMultiplicativeStep loop = true ↔
        HoldsOperator (pieceAt 2 arguments)) := by
  have habsent :
      occursIn "for".toList (argumentsText arguments ++ ')' :: [':']) = false :=
    occursIn_closedArguments (by simp) fun argument hargument =>
      (h argument hargument).loopless "for" (by simp)
  have hne : upToClosing (argumentsText arguments) ≠ [] := by
    obtain ⟨first, others, rfl⟩ := List.exists_cons_of_ne_nil hfilled
    exact upToClosing_argumentsText_ne_nil (h first List.mem_cons_self) others
  have hinside := not_mem_upToClosing (argumentsText arguments)
  obtain ⟨after, hafter⟩ :=
    exists_append_closing_eq (argumentsText arguments) [':']
  rw [hafter] at habsent ⊢
  rw [occursIn_append_cons (by decide) (by decide),
    Bool.or_eq_false_iff] at habsent
  exact ⟨_, allMatches_rangeLoop?_rangeText hname hne hinside habsent.2,
    hasMultiplicativeStep_iff hname hinside⟩

end

theorem isArgument_of_decided {text : List Char}
    (h : openAfter? [] text = some [] ∧ text.all isBlank = false ∧ '\n' ∉ text ∧
      ∀ word ∈ ["for", "range"], occursIn word.toList text = false) :
      IsArgument text :=
  ⟨h.1, by simpa using h.2.1, h.2.2.1, h.2.2.2⟩

end Scan

open Scan

/--
A loop over a range is the only loop of its snippet if its counter is a name,
and is not found otherwise.  It is logarithmic exactly if an operator stands
between the second comma and the third in front of the first closing
parenthesis, and linear otherwise.  So the third argument decides exactly if
that text holds an operator just when there is a third argument that does, in
particular if the first three have no commas and closing parentheses.
-/
theorem scan_rangeSnippet (parse : Parser) (counter : String)
    (arguments : List String) (written : counter ≠ "")
    (blankFree : IsBlankFree counter.toList) (filled : arguments ≠ [])
    (h : ∀ argument ∈ arguments, IsArgument argument.toList) :
    let outcome := Profile.python.scan parse (rangeSnippet counter arguments)
    let judged := pieceAt 2 (arguments.map String.toList)
    FailsExactly outcome
      (Profile.python.HoldsOverlong parse (rangeSnippet counter arguments)) ∧
    ((∀ argument ∈ arguments, occursIn "def".toList argument.toList = false) →
      ∃ report, outcome = .ok report) ∧
    (∀ report, outcome = .ok report →
      (¬ IsName counter.toList →
        report.findings.filter (·.construct = "For Loop") = []) ∧
      (IsName counter.toList → ∃ loop,
        report.findings.filter (·.construct = "For Loop") = [loop] ∧
        (loop.result = .ofLabel "log n" ↔ HoldsOperator judged) ∧
        (loop.result = .ofLabel "n" ↔ ¬ HoldsOperator judged) ∧
        ((loop.result = .ofLabel "log n" ↔ HasOperatorStep arguments) ↔
          (HoldsOperator judged ↔ HasOperatorStep arguments)))) ∧
    ((∀ argument ∈ arguments.take 3, ',' ∉ argument.toList ∧
      ')' ∉ argument.toList) →
      (HoldsOperator judged ↔ HasOperatorStep arguments)) := by
  intro outcome judged
  have hfails := Profile.scan_failsExactly .python parse nofun
    (rangeSnippet counter arguments)
  have hwritten : counter.toList ≠ [] := by simpa using written
  have hfilled : arguments.map String.toList ≠ [] := by simpa using filled
  have harguments : ∀ argument ∈ arguments.map String.toList,
      IsArgument argument := by
    simpa using h
  refine ⟨hfails, fun plain => ?_, fun report returned => ?_, fun plain => ?_⟩
  · refine hfails.exists_ok ?_
    have habsent : ∀ argument ∈ arguments.map String.toList,
        occursIn "def".toList argument = false := by simpa using plain
    rintro ⟨name, hname, -⟩
    rw [toList_rangeSnippet, allMatches_definition?_rangeText blankFree
      (occursIn_closedArguments (by simp) habsent)] at hname
    simp at hname
  · have hloops := filter_forLoop_scanRanges returned
    rw [toList_rangeSnippet] at hloops
    refine ⟨fun hname => ?_, fun hname => ?_⟩
    · have habsent : occursIn "for".toList
          (argumentsText (arguments.map String.toList) ++ ')' :: [':']) = false :=
        occursIn_closedArguments (by simp) fun argument hargument =>
          (harguments argument hargument).loopless "for" (by simp)
      rw [hloops, allMatches_rangeLoop?_eq_nil blankFree hwritten hname habsent,
        List.map_nil]
    · obtain ⟨loop, hloop, hstep⟩ :=
        allMatches_rangeLoop?_of_isName hname hfilled harguments
      obtain ⟨hlogarithmic, hlinear⟩ := result_ofRangeLoop hstep
      refine ⟨(ofRangeLoop loop).finding, ?_, hlogarithmic, hlinear, ?_⟩
      · rw [hloops, hloop, List.map_singleton]
      · rw [hlogarithmic]
  · have hplain : ∀ argument ∈ (arguments.map String.toList).take 3,
        ',' ∉ argument ∧ ')' ∉ argument := by
      simpa [← List.map_take] using plain
    rw [holdsOperator_pieceAt_iff hplain]
    simp [HasOperatorStep, List.getElem?_map]

theorem scan_rangeSnippet_calledBound :
    (("i" ≠ "" ∧ IsBlankFree "i".toList ∧ IsName "i".toList) ∧
      ["0", "max(a, n / 2)", "1"] ≠ [] ∧
      ∀ argument ∈ ["0", "max(a, n / 2)", "1"], IsArgument argument.toList) ∧
    ∃ report loop,
      Profile.python.scan
        (Parser.knowing []) "for i in range(0, max(a, n / 2), 1):" =
          .ok report ∧
      report.findings.filter (·.construct = "For Loop") = [loop] ∧
      loop.result = .ofLabel "log n" := by
  have hname : IsName "i".toList := by decide
  have harguments : ∀ argument ∈ ["0", "max(a, n / 2)", "1"],
      IsArgument argument.toList := by
    simp only [List.forall_mem_cons]
    exact ⟨isArgument_of_decided (by decide), isArgument_of_decided (by decide),
      isArgument_of_decided (by decide), by simp⟩
  have hjudged : HoldsOperator
      (pieceAt 2 (["0", "max(a, n / 2)", "1"].map String.toList)) := by decide
  obtain ⟨-, hreturns, hloops, -⟩ :=
    scan_rangeSnippet _ "i" _ (by decide) hname.isBlankFree (by simp) harguments
  obtain ⟨report, returned⟩ := hreturns (by decide)
  obtain ⟨loop, hloop, hlogarithmic, -⟩ := (hloops report returned).2 hname
  exact ⟨⟨⟨by decide, hname.isBlankFree, hname⟩, by simp, harguments⟩, report,
    loop, returned, hloop, hlogarithmic.2 hjudged⟩

/-- A call in the first argument hides a step that multiplies. -/
theorem scan_rangeSnippet_hiddenStep :
    ¬ ∀ arguments : List String, arguments ≠ [] →
      (∀ argument ∈ arguments, IsArgument argument.toList) →
      ∃ report loop,
        Profile.python.scan (Parser.knowing []) (rangeSnippet "i" arguments) =
          .ok report ∧
        report.findings.filter (·.construct = "For Loop") = [loop] ∧
        (loop.result = .ofLabel "log n" ↔ HasOperatorStep arguments) ∧
        (loop.result = .ofLabel "n" ↔ ¬ HasOperatorStep arguments) := by
  intro claimed
  have harguments : ∀ argument ∈ ["f(0)", "n", "2 * i"],
      IsArgument argument.toList := by
    simp only [List.forall_mem_cons]
    exact ⟨isArgument_of_decided (by decide), isArgument_of_decided (by decide),
      isArgument_of_decided (by decide), by simp⟩
  have hstep : HasOperatorStep ["f(0)", "n", "2 * i"] := ⟨"2 * i", rfl, by decide⟩
  have hscan :
      Profile.python.scan (Parser.knowing [])
        (rangeSnippet "i" ["f(0)", "n", "2 * i"]) =
      .ok { findings :=
          [⟨"For Loop", "Python for loop with range(n)", .ofLabel "n"⟩] } := by
    decide +kernel
  obtain ⟨report, loop, hreport, hloop, hlogarithmic, -⟩ :=
    claimed _ (by simp) harguments
  cases hscan.symm.trans hreport
  cases hloop
  exact absurd (hlogarithmic.2 hstep) (by decide)

end SnippetGrowth
