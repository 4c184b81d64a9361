import SnippetGrowth.Analysis
import SnippetGrowth.Proofs.CallSites
import SnippetGrowth.Proofs.Detection
import SnippetGrowth.Proofs.Outcome

/-!
# Line ends

Whether the lines of a snippet end in a newline or in a carriage return and a
newline makes no difference to its analysis, unless it is taken for a script.
A carriage return before the newline is white space wherever a recogniser
skips white space, and it stands at the end of its line wherever lines are
told apart.
-/

namespace SnippetGrowth

open Text Scan

def withCarriageReturns (text : String) : String :=
  String.ofList (text.toList.flatMap fun c =>
    if c = '\n' then ['\r', '\n'] else [c])

def carriageReturns : Spelling where
  lineEnd := ['\r', '\n']
  letter := id
  lineEnd_ne_nil := by simp
  isLineEnd_of_mem := by simp [isLineEnd]
  letter_eq_or := fun _ => .inl rfl
  fold_letter := fun _ => rfl

theorem carriageReturns_isExact : carriageReturns.IsExact := fun _ => rfl

theorem toList_withCarriageReturns (text : String) :
    (withCarriageReturns text).toList = carriageReturns.respell text.toList := by
  rw [withCarriageReturns, String.toList_ofList]
  rfl

/-! ## Lines -/

def IsReturned (line other : List Char) : Prop :=
  line = other ∨ line = other ++ ['\r']

private theorem isReturned_cons {line other : List Char}
    (h : IsReturned line other) (c : Char) :
    IsReturned (c :: line) (c :: other) := by
  rcases h with rfl | rfl
  · exact .inl rfl
  · exact .inr rfl

private theorem lines_cons_of_ne {c : Char} (h : c ≠ '\n') {text line : List Char}
    {rest : List (List Char)} (hlines : lines text = line :: rest) :
    lines (c :: text) = (c :: line) :: rest := by
  rw [lines] at hlines ⊢
  rw [split, if_neg h, hlines]

theorem lines_carriageReturns (text : List Char) :
    List.Forall₂ IsReturned (lines (carriageReturns.respell text))
      (lines text) := by
  induction text with
  | nil => exact .cons (.inl rfl) .nil
  | cons c text ih =>
      by_cases hc : c = '\n'
      · subst hc
        have hreturned : lines ('\r' :: '\n' :: carriageReturns.respell text) =
            ['\r'] :: lines (carriageReturns.respell text) :=
          lines_cons_of_ne (by decide) rfl
        rw [Spelling.respell_cons, Spelling.spell_newline]
        exact hreturned ▸ .cons (.inr rfl) ih
      · obtain ⟨line, rest, hlines⟩ :=
          List.exists_cons_of_ne_nil (split_ne_nil '\n' text)
        obtain ⟨returned, others, hreturned⟩ :=
          List.exists_cons_of_ne_nil
            (split_ne_nil '\n' (carriageReturns.respell text))
        have hpairs :
            List.Forall₂ IsReturned (returned :: others) (line :: rest) := by
          rw [← hlines, ← hreturned]
          exact ih
        obtain ⟨hfirst, hrest⟩ := List.forall₂_cons.1 hpairs
        rw [Spelling.respell_cons_of_ne _ hc, carriageReturns_isExact c,
          lines_cons_of_ne hc hlines, lines_cons_of_ne hc hreturned]
        exact .cons (isReturned_cons hfirst c) hrest

private theorem strip_concat {c : Char} (h : isBlank c = true)
    (line : List Char) :
    strip (line ++ [c]) = strip line := by
  have hfront : dropBlanks (line ++ [c]) =
      if (dropBlanks line).isEmpty then [] else dropBlanks line ++ [c] := by
    unfold dropBlanks
    rw [List.dropWhile_append, List.dropWhile_cons_of_pos h, List.dropWhile_nil]
  rw [strip, strip, hfront]
  split
  · next hempty => rw [List.isEmpty_iff.1 hempty]
  · rw [List.reverse_append, List.reverse_singleton, List.singleton_append]
    exact congrArg List.reverse (List.dropWhile_cons_of_pos h)

theorem opensLevel_returned {line other : List Char} (h : IsReturned line other) :
    opensLevel line = opensLevel other := by
  rcases h with rfl | rfl
  · rfl
  · unfold opensLevel
    rw [occursIn_concat (by decide) (by decide),
      occursIn_concat (by decide) (by decide)]

private theorem closesLevel_returned {line other : List Char}
    (h : IsReturned line other) :
    closesLevel line = closesLevel other := by
  rw [closesLevel, closesLevel, opensLevel_returned h]
  rcases h with rfl | rfl
  · rfl
  · simp

private theorem strip_returned {line other : List Char}
    (h : IsReturned line other) :
    strip line = strip other := by
  rcases h with rfl | rfl
  · rfl
  · exact strip_concat (by decide) other

private theorem nestingReachedFrom_returned {lines others : List (List Char)}
    (h : List.Forall₂ IsReturned lines others) (threshold depth : Int) :
    nestingReachedFrom threshold depth lines =
      nestingReachedFrom threshold depth others := by
  induction h generalizing depth with
  | nil => rfl
  | cons hline _ ih =>
      simp only [nestingReachedFrom, opensLevel_returned hline,
        closesLevel_returned hline, ih]

private theorem deepLines_returned {lines others : List (List Char)}
    (h : List.Forall₂ IsReturned lines others) (depth : Int) :
    deepLines depth lines = deepLines depth others := by
  induction h generalizing depth with
  | nil => rfl
  | cons hline _ ih => simp only [deepLines, strip_returned hline, ih]

/-! ## Scans -/

theorem scanHeaders_carriageReturns (code : List Char) :
    scanHeaders (carriageReturns.respell code) = scanHeaders code := by
  have hnested : nestingReached (lines (carriageReturns.respell code)) =
      nestingReached (lines code) :=
    nestingReachedFrom_returned (lines_carriageReturns code) 2 0
  have hfor : headers "for" (carriageReturns.respell code) =
      (headers "for" code).map carriageReturns.respell :=
    carriageReturns.headers_respell carriageReturns_isExact (by decide)
      (by decide) code
  have hwhile : headers "while" (carriageReturns.respell code) =
      (headers "while" code).map carriageReturns.respell :=
    carriageReturns.headers_respell carriageReturns_isExact (by decide)
      (by decide) code
  have hloops : ∀ nested,
      (headers "for" code).mapM (ofHeader nested ∘ carriageReturns.respell) =
        (headers "for" code).mapM (ofHeader nested) := by
    intro nested
    refine mapM_congr fun header hheader => ?_
    obtain ⟨front, inside, rfl⟩ := shape_of_mem_headers hheader
    simpa using carriageReturns.ofHeader_respell nested (front ++ '(' :: inside)
  simp only [scanHeaders, hnested, hfor, hwhile, List.mapM_map, hloops,
    List.map_map]
  rfl

theorem scanRanges_carriageReturns (code : List Char) :
    scanRanges (carriageReturns.respell code) = scanRanges code := by
  have suits : carriageReturns.Suits definitionStyle := by
    refine ⟨.inr carriageReturns_isExact, ?_, ?_, ?_⟩ <;> decide
  have hloops :=
    (carriageReturns.respells_rangeLoop? carriageReturns_isExact).allMatches_eq
    isAnchored_rangeLoop? isAnchored_rangeLoop? code
  have hstep : ofRangeLoop ∘ carriageReturns.respell = ofRangeLoop := by
    funext loop
    simp only [Function.comp_apply, ofRangeLoop,
      carriageReturns.hasMultiplicativeStep_respell carriageReturns_isExact]
  have hnested := deepLines_returned (lines_carriageReturns code) 0
  have hdefinitions :=
    (carriageReturns.respells_definition? carriageReturns_isExact).allMatches_eq
      isAnchored_definition? isAnchored_definition? code
  have hnames : ∀ name ∈ allMatches definition? code, IsName name :=
    fun _ => isName_of_mem_definitions
  have hfunctions :=
    suits.mapM_ofFunction_respell carriageReturns_isExact code hnames
  simp only [scanRanges,
    carriageReturns.usesPermutations_respell carriageReturns_isExact, hloops,
    List.map_map, hstep, hnested, hdefinitions, hfunctions]

theorem scanCounted_carriageReturns (code : List Char) :
    scanCounted (carriageReturns.respell code) = scanCounted code := by
  have suits : carriageReturns.Suits functionStyle := by
    refine ⟨.inl rfl, ?_, ?_, ?_⟩ <;> decide
  have hloops := carriageReturns.respells_countedLoop?.allMatches_eq
    isAnchored_countedLoop? isAnchored_countedLoop? code
  have hheaders := carriageReturns.respells_functionHeader?.allMatches_eq
    isAnchored_functionHeader? isAnchored_functionHeader? code
  have hnames : ∀ name ∈ allMatches functionHeader? code, IsName name :=
    fun _ => isName_of_mem_functionHeaders
  have hfunctions :=
    suits.mapM_ofFunction_respell carriageReturns_isExact code hnames
  simp only [scanCounted, hloops, List.map_id, hheaders, hfunctions]

/-! ## Profiles -/

private theorem map_toLower_carriageReturns (text : List Char) :
    (carriageReturns.respell text).map Char.toLower =
      carriageReturns.respell (text.map Char.toLower) := by
  induction text with
  | nil => rfl
  | cons c text ih =>
      by_cases hc : c = '\n'
      · subst hc
        rw [Spelling.respell_cons, List.map_append, ih]
        rfl
      · have hlower : c.toLower ≠ '\n' := by
          rcases toLower_eq_or_isUpper c with heq | ⟨-, hletter⟩
          · rwa [heq]
          · intro heq
            rw [heq] at hletter
            exact absurd hletter (by decide)
        rw [Spelling.respell_cons_of_ne _ hc, List.map_cons, List.map_cons, ih,
          Spelling.respell_cons_of_ne _ hlower, carriageReturns_isExact,
          carriageReturns_isExact]

private theorem normalized_carriageReturns (code : List Char) :
    Profile.normalized (carriageReturns.respell code) =
      carriageReturns.respell (Profile.normalized code) := by
  rw [Profile.normalized, Spelling.strip_respell, map_toLower_carriageReturns,
    Profile.normalized]

private theorem detect_withCarriageReturns (code : String) :
    Profile.detect (withCarriageReturns code) = Profile.detect code := by
  have hsolid : ∀ entry ∈ Profile.markers, ∀ word ∈ entry.2,
      word.toList ≠ [] ∧ IsSolid word.toList := by decide
  rw [Profile.detect_eq, Profile.detect_eq]
  refine Profile.ofText_congr fun entry hentry word hword => ?_
  obtain ⟨hne, hword⟩ := hsolid entry hentry word hword
  rw [toList_withCarriageReturns, normalized_carriageReturns]
  exact carriageReturns.occursIn_respell hne
    (carriageReturns_isExact.keeps_all hword) _

/-- Outside scripts the outcome of an analysis does not depend on whether lines
end in a newline or in a carriage return and a newline. -/
theorem analyze_withCarriageReturns {parse : Parser} {code : String}
    (h : Profile.detect code ∈ [Profile.c, Profile.python, Profile.pascal]) :
    analyze parse (withCarriageReturns code) = analyze parse code := by
  have hcode := toList_withCarriageReturns code
  have hblank : (strip (withCarriageReturns code).toList).isEmpty =
      (strip code.toList).isEmpty := by
    rw [hcode, Spelling.strip_respell, Bool.eq_iff_iff, List.isEmpty_iff,
      List.isEmpty_iff, Spelling.respell_eq_nil_iff]
  have hlength : (lines (withCarriageReturns code).toList).length =
      (lines code.toList).length := by
    rw [hcode]
    exact (lines_carriageReturns code.toList).length_eq
  have hscan : (Profile.detect code).scan parse (withCarriageReturns code) =
      (Profile.detect code).scan parse code := by
    simp only [List.mem_cons, List.not_mem_nil, or_false] at h
    rcases h with hprofile | hprofile | hprofile <;> rw [hprofile]
    · exact (congrArg scanHeaders hcode).trans
        (scanHeaders_carriageReturns code.toList)
    · exact (congrArg scanRanges hcode).trans
        (scanRanges_carriageReturns code.toList)
    · exact (congrArg scanCounted hcode).trans
        (scanCounted_carriageReturns code.toList)
  rw [analyze, analyze, hblank, hlength, detect_withCarriageReturns, hscan]

def wrappedSnippet : String :=
  "def f(n,\n m):\n  for i in range(1,\n n):\n    f(n\n / 2)"

theorem analyze_withCarriageReturns_wrappedSnippet :
    Profile.detect wrappedSnippet = .python ∧
    withCarriageReturns wrappedSnippet ≠ wrappedSnippet ∧
      ∃ result, analyze (Parser.knowing []) wrappedSnippet = .ok result ∧
        result.findings.length = 2 ∧
        analyze (Parser.knowing []) (withCarriageReturns wrappedSnippet) =
          .ok result := by
  have hdetect : Profile.detect wrappedSnippet = .python := by decide +kernel
  have returned : analyze (Parser.knowing []) wrappedSnippet = .ok {
      time := .ofLabel "n"
      space := .ofLabel "log_2 n"
      findings := [
        ⟨"For Loop", "Python for loop with range(n)", .ofLabel "n"⟩,
        ⟨"Recursive Function", "Function f with 1 recursive calls, n/2 reduction",
          .ofLabel "log n"⟩]
      average := .ofLabel "n" } := by
    decide +kernel
  refine ⟨hdetect, by decide +kernel, _, returned, rfl, ?_⟩
  rw [analyze_withCarriageReturns (by rw [hdetect]; decide), returned]

end SnippetGrowth
