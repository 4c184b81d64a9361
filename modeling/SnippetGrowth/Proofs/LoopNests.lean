import SnippetGrowth.Proofs.CountedLoops
import SnippetGrowth.Proofs.Headers

/-!
# Nests of counted loops

Loops that stand directly inside one another have no semicolon between their
headers.  The loop that is found at the outermost header goes on up to the last
`do`, which is that of the innermost one.  A nest of any depth is therefore one
loop, as long as the statement in it has no loop of its own.
-/

namespace SnippetGrowth

open Text

namespace Scan

/-! ## Words that stand in a text -/

theorem isWritten_self (word : List Char) : IsWritten word word :=
  List.forall₂_same.2 fun _ _ => sameLetter_iff.2 rfl

def HoldsWord (word text : List Char) : Prop := ∃ rest, LeftBehind word text rest

theorem HoldsWord.of_isInfix {word written text : List Char}
    (hwritten : IsWritten word written) (h : written <:+: text) :
    HoldsWord word text := by
  obtain ⟨before, rest, rfl⟩ := h
  exact ⟨rest, before, written, hwritten, List.append_assoc _ _ _⟩

theorem holdsWord_iff {word text : List Char} (hword : word ≠ []) :
    HoldsWord word text ↔ (afterLast? word text).isSome = true := by
  have hmost := takesMost_afterLast? hword text
  cases hlast : afterLast? word text with
  | none =>
      rw [hlast] at hmost
      cases hmost with
      | nothing hnone => simpa [HoldsWord] using hnone
  | some rest =>
      rw [hlast] at hmost
      cases hmost with
      | most hleft => exact iff_of_true ⟨rest, hleft⟩ rfl

theorem countedLoop?_eq_none_of_not_holdsWord {text later : List Char}
    (h : ¬ HoldsWord "for".toList text) (hlater : later <:+: text)
    (previous : Option Char) :
    countedLoop? previous later = none := by
  apply LoopReading.countedLoop?_eq_none_iff.2
  rintro rest ⟨r, rfl⟩
  apply h
  have hkeyword : r.opening.keyword <:+: r.text ++ rest := by
    refine ⟨[],
      r.opening.blanks ++
        (r.opening.counter ++ (r.opening.gap ++ [':', '='])) ++
          (r.bounds.text ++ rest), ?_⟩
    simp [LoopReading.text, LoopOpening.text]
  exact .of_isInfix r.opening.isFor (hkeyword.trans hlater)

/-! ## Headers -/

/-- What a bound of a loop may be made of: digits, spaces and signs. -/
def isBoundPart (c : Char) : Bool := isDigit c || [' ', '+', '-'].contains c

/-- The white space in front of a header, and the parts of `for v := a to b do`. -/
structure CountedHeader where
  margin : List Char
  counter : List Char
  start : List Char
  limit : List Char
  isBlank_of_mem_margin : ∀ c ∈ margin, isBlank c = true
  isName : IsName counter
  start_ne_nil : start ≠ []
  isBoundPart_of_mem_start : ∀ c ∈ start, isBoundPart c = true
  limit_ne_nil : limit ≠ []
  isBoundPart_of_mem_limit : ∀ c ∈ limit, isBoundPart c = true

namespace CountedHeader

def text (h : CountedHeader) : List Char :=
  "for ".toList ++ (h.counter ++ (" := ".toList ++ (h.start ++ (" to ".toList ++
    (h.limit ++ " do".toList)))))

private theorem spaced_undivided {bound : List Char}
    (h : ∀ c ∈ bound, isBoundPart c = true) :
    ';' ∉ ' ' :: (bound ++ [' ']) := by
  have hbound : ';' ∉ bound := fun hmem => absurd (h _ hmem) (by decide)
  simp [hbound]

def reading (h : CountedHeader) : LoopReading where
  opening := {
    keyword := "for".toList
    blanks := [' ']
    counter := h.counter
    gap := [' ']
    isFor := isWritten_self _
    blanks_ne_nil := by simp
    isBlank_of_mem_blanks := List.forall_mem_singleton.2 rfl
    isName := h.isName
    isBlank_of_mem_gap := List.forall_mem_singleton.2 rfl }
  bounds := {
    margin := []
    start := ' ' :: (h.start ++ [' '])
    toward := "to".toList
    limit := ' ' :: (h.limit ++ [' '])
    action := "do".toList
    isBlank_of_mem_margin := by simp
    start_ne_nil := by simp
    start_undivided := spaced_undivided h.isBoundPart_of_mem_start
    isTo := isWritten_self _
    limit_ne_nil := by simp
    limit_undivided := spaced_undivided h.isBoundPart_of_mem_limit
    isDo := isWritten_self _ }

theorem text_reading (h : CountedHeader) : h.reading.text = h.text := by
  simp [LoopReading.text, LoopOpening.text, LoopBounds.text, LoopBounds.front,
    reading, text]

theorem append_ne_nil (h : CountedHeader) {more : List Char} :
    h.text ++ more ≠ [] := by
  rw [← h.text_reading]
  simp [h.reading.text_ne_nil]

end CountedHeader

def headersText (headers : List CountedHeader) : List Char :=
  headers.flatMap fun h => h.margin ++ h.text

theorem headersText_cons (h : CountedHeader) (headers : List CountedHeader) :
    headersText (h :: headers) = h.margin ++ h.text ++ headersText headers := rfl

def nestText (headers : List CountedHeader) (statement : List Char) : List Char :=
  headersText headers ++ statement

/-! ## The loop that is found -/

private theorem exists_reading_append (r : LoopReading)
    (headers : List CountedHeader) :
    ∃ wide : LoopReading, wide.text = r.text ++ headersText headers := by
  induction headers generalizing r with
  | nil => exact ⟨r, (List.append_nil _).symm⟩
  | cons h headers ih =>
      have hmargin : ';' ∉ h.margin := fun hmem =>
        absurd (h.isBlank_of_mem_margin _ hmem) (by decide)
      have hfront : ';' ∉ h.reading.front := fun hmem =>
        h.reading.text_undivided (by simp [h.reading.text_eq, hmem])
      have haction : ';' ∉ r.bounds.action := fun hmem =>
        r.text_undivided (by simp [r.text_eq, hmem])
      have hundivided :
          ';' ∉ r.bounds.action ++ (h.margin ++ h.reading.front) := by
        simp [haction, hmargin, hfront]
      have hne :
          r.bounds.action ++ (h.margin ++ h.reading.front) ≠ [] := fun hnil =>
        absurd r.bounds.isDo
          (by simp [(List.append_eq_nil_iff.1 hnil).1, IsWritten])
      obtain ⟨longer, hlonger, -⟩ :=
        r.exists_longer hne hundivided h.reading.bounds.isDo
      obtain ⟨wide, hwide⟩ := ih longer
      refine ⟨wide, ?_⟩
      rw [hwide, hlonger, headersText_cons, ← h.text_reading, h.reading.text_eq,
        r.text_eq]
      simp only [List.append_assoc]

private theorem exists_letters_of_isDo {written : List Char}
    (h : IsWritten "do".toList written) :
    ∃ d o, written = [d, o] ∧ fold d = fold 'd' ∧ fold o = fold 'o' := by
  change List.Forall₂ _ ['d', 'o'] written at h
  cases h with
  | cons hd h =>
      cases h with
      | cons ho h =>
          cases h
          exact ⟨_, _, rfl, (sameLetter_iff.1 hd).symm,
            (sameLetter_iff.1 ho).symm⟩

private theorem length_le_of_leaves {r : LoopReading} {statement rest : List Char}
    (h : ¬ HoldsWord "do".toList statement)
    (hleaves : LoopReading.Leaves (r.text ++ statement) rest) :
    statement.length ≤ rest.length := by
  by_contra hlt
  obtain ⟨other, hother⟩ := hleaves
  rw [other.text_eq, List.append_assoc] at hother
  rcases List.append_eq_append_iff.1 hother with
    ⟨inside, -, hstatement⟩ | ⟨inside, htext, hend⟩
  · apply h
    exact .of_isInfix other.bounds.isDo ⟨inside, rest, by simp [hstatement]⟩
  · obtain ⟨d, o, haction, hd, -⟩ := exists_letters_of_isDo other.bounds.isDo
    rw [haction] at hend
    cases inside with
    | nil =>
        apply h
        exact .of_isInfix other.bounds.isDo ⟨[], rest, by simp [haction, hend]⟩
    | cons c inside =>
        have hlength := congrArg List.length hend
        simp only [List.length_append, List.length_cons,
          List.length_nil] at hlength
        obtain rfl : inside = [] := List.eq_nil_of_length_eq_zero (by omega)
        obtain ⟨rfl, -⟩ := List.cons.inj hend
        obtain ⟨d', o', haction', -, ho'⟩ := exists_letters_of_isDo r.bounds.isDo
        rw [r.text_eq, haction'] at htext
        have hlast := congrArg List.getLast? htext
        simp only [List.getLast?_append, List.getLast?_cons_cons,
          List.getLast?_singleton, Option.some_or, Option.some.injEq] at hlast
        rw [hlast, hd] at ho'
        exact absurd ho' (by decide +kernel)

/-- The loop of a nest starts at its first header and stops in front of its
statement. -/
theorem countedLoop?_nest (previous : Option Char) (first : CountedHeader)
    (others : List CountedHeader) {statement : List Char}
    (h : ¬ HoldsWord "do".toList statement) :
    countedLoop? previous (first.text ++ nestText others statement) =
      some ((), statement) := by
  obtain ⟨wide, hwide⟩ := exists_reading_append first.reading others
  have htext : first.text ++ nestText others statement =
      wide.text ++ statement := by
    rw [hwide, first.text_reading, nestText, List.append_assoc]
  rw [htext]
  apply LoopReading.countedLoop?_eq_some_iff.2
  constructor
  · exact ⟨wide, rfl⟩
  · intro rest hleaves
    exact length_le_of_leaves h hleaves

private theorem countedLoop?_of_isBlank {c : Char} (h : isBlank c = true)
    (previous : Option Char) (later : List Char) :
    countedLoop? previous (c :: later) = none := by
  have hletter : sameLetter 'f' c = false := by
    have hall : ∀ n ∈ blankCodes, sameLetter 'f' (Char.ofNat n) = false := by
      decide +kernel
    simpa only [Char.ofNat_toNat] using hall c.toNat (toNat_mem_blankCodes h)
  apply LoopReading.countedLoop?_eq_none_iff.2
  rintro rest ⟨r, hr⟩
  have hfor : List.Forall₂ _ ['f', 'o', 'r'] r.opening.keyword := r.opening.isFor
  cases hkeyword : r.opening.keyword with
  | nil => simp [hkeyword] at hfor
  | cons d keyword =>
      rw [hkeyword] at hfor
      cases hfor with
      | cons hsame =>
          rw [LoopReading.text, LoopOpening.text, hkeyword] at hr
          obtain ⟨rfl, -⟩ := List.cons.inj hr
          rw [hletter] at hsame
          contradiction

private theorem allMatches_nest (headers : List CountedHeader)
    {statement : List Char} (hfor : ¬ HoldsWord "for".toList statement)
    (hdo : ¬ HoldsWord "do".toList statement) :
    allMatches countedLoop? (nestText headers statement) =
      List.replicate (min headers.length 1) () := by
  have hstatement : ∀ previous,
      matchesFrom countedLoop? previous 0 statement = [] := fun previous =>
    matchesFrom_eq_nil (fun later hlater =>
      countedLoop?_eq_none_of_not_holdsWord hfor hlater.isInfix) previous 0
  cases headers with
  | nil => exact hstatement none
  | cons first others =>
      have hmissed : ∀ c later, c :: later <:+ first.margin → ∀ previous,
          countedLoop? previous
            (c :: (later ++ (first.text ++ nestText others statement))) = none :=
        fun c later hlater previous => countedLoop?_of_isBlank
          (first.isBlank_of_mem_margin c (hlater.subset List.mem_cons_self))
          previous _
      have htext : nestText (first :: others) statement =
          first.margin ++ (first.text ++ nestText others statement) := by
        simp only [nestText, headersText_cons, List.append_assoc]
      obtain ⟨c, front, hfront⟩ := List.exists_cons_of_ne_nil first.append_ne_nil
      have hopen : first.text ++ nestText others statement =
          c :: (front ++ statement) := by
        rw [← List.cons_append, ← hfront, nestText, List.append_assoc]
      have hfound :=
        countedLoop?_nest (first.margin.getLast?.or none) first others hdo
      rw [hopen] at hfound
      rw [allMatches, htext, matchesFrom_append_of_missed hmissed, hopen,
        matchesFrom_found hfound, hstatement]
      simp

private theorem foundAt_nest (first : CountedHeader) (others : List CountedHeader)
    {statement : List Char} (h : ¬ HoldsWord "do".toList statement) :
    FoundAt countedLoop? (nestText (first :: others) statement)
      first.margin.length ()
      (headersText (first :: others)).length := by
  refine ⟨first.margin, first.text ++ nestText others statement, statement,
    ?_, rfl, first.append_ne_nil, countedLoop?_nest _ first others h, ?_⟩
  · simp only [nestText, headersText_cons, List.append_assoc]
  · rw [nestText, List.length_append]

end Scan

open Scan

def nestSnippet (headers : List CountedHeader) (statement : String) : String :=
  String.ofList (nestText headers statement.toList)

/--
A scan counts loops that stand directly inside one another once, however many
there are.  The loop that is found starts at the outermost header and stops
behind the innermost one, so the count is right for one header at most.
-/
theorem nest_counted_once (parse : Parser) (headers : List CountedHeader)
    (statement : String) (hfor : ¬ HoldsWord "for".toList statement.toList)
    (hdo : ¬ HoldsWord "do".toList statement.toList) :
    FailsExactly (Profile.pascal.scan parse (nestSnippet headers statement))
      (Profile.pascal.HoldsOverlong parse (nestSnippet headers statement)) ∧
    (∀ first others, headers = first :: others →
      FoundAt countedLoop? (nestText headers statement.toList)
        first.margin.length ()
        (headersText headers).length) ∧
    ∀ report, Profile.pascal.scan parse (nestSnippet headers statement) =
      .ok report →
      report.findings.countP (·.construct = "For Loop") = min headers.length 1 ∧
      (report.findings.countP (·.construct = "For Loop") = headers.length ↔
        headers.length ≤ 1) := by
  refine ⟨Profile.scan_failsExactly .pascal _ nofun _, ?_, ?_⟩
  · rintro first others rfl
    exact foundAt_nest first others hdo
  · intro report returned
    have hcount : report.findings.countP (·.construct = "For Loop") =
        min headers.length 1 := by
      rw [countP_forLoop_scanCounted returned, nestSnippet, String.toList_ofList,
        allMatches_nest headers hfor hdo, List.length_replicate]
    rw [hcount]
    omega

def nineTimes (margin counter : String)
    (hmargin : margin.toList.all isBlank = true)
    (hcounter : counter.toList ≠ [] ∧ counter.toList.all isWord = true) :
    CountedHeader where
  margin := margin.toList
  counter := counter.toList
  start := ['1']
  limit := ['9']
  isBlank_of_mem_margin := List.all_eq_true.1 hmargin
  isName := isName_iff.2 hcounter
  start_ne_nil := by simp
  isBoundPart_of_mem_start := List.forall_mem_singleton.2 rfl
  limit_ne_nil := by simp
  isBoundPart_of_mem_limit := List.forall_mem_singleton.2 rfl

def oneLoopReport : Report where
  findings :=
    [⟨"For Loop", "Pascal for loop with linear iterations", .ofExpression "n"⟩]

def cubeHeaders : List CountedHeader :=
  [nineTimes "" "i" rfl (by decide), nineTimes "\n" "j" rfl (by decide),
    nineTimes "\t" "k" rfl (by decide)]

theorem nest_counted_once_cubeHeaders :
    nestSnippet cubeHeaders " s(j); t" =
      "for i := 1 to 9 do\nfor j := 1 to 9 do\tfor k := 1 to 9 do s(j); t" ∧
    ¬ HoldsWord "for".toList " s(j); t".toList ∧
    ¬ HoldsWord "do".toList " s(j); t".toList ∧
    Profile.pascal.scan (Parser.knowing []) (nestSnippet cubeHeaders " s(j); t") =
      .ok oneLoopReport ∧
    oneLoopReport.findings.countP (·.construct = "For Loop") =
        min cubeHeaders.length 1 := by
  have hfor : ¬ HoldsWord "for".toList " s(j); t".toList := by
    rw [holdsWord_iff (by decide)]
    decide +kernel
  have hdo : ¬ HoldsWord "do".toList " s(j); t".toList := by
    rw [holdsWord_iff (by decide)]
    decide +kernel
  have returned :
      Profile.pascal.scan (Parser.knowing [])
        (nestSnippet cubeHeaders " s(j); t") =
      .ok oneLoopReport := by
    decide +kernel
  obtain ⟨-, -, hcount⟩ :=
    nest_counted_once (Parser.knowing []) cubeHeaders " s(j); t" hfor hdo
  exact ⟨by decide +kernel, hfor, hdo, returned, (hcount _ returned).1⟩

def pairHeaders : List CountedHeader :=
  [nineTimes "" "i" rfl (by decide), nineTimes "\n  " "j" rfl (by decide)]

theorem nested_pair_miscounted :
    nestSnippet pairHeaders "\n    s(j)" =
      "for i := 1 to 9 do\n  for j := 1 to 9 do\n    s(j)" ∧
    ¬ HoldsWord "for".toList "\n    s(j)".toList ∧
    ¬ HoldsWord "to".toList "\n    s(j)".toList ∧
    ¬ HoldsWord "do".toList "\n    s(j)".toList ∧
    Profile.pascal.scan (Parser.knowing [])
      (nestSnippet pairHeaders "\n    s(j)") = .ok oneLoopReport ∧
    oneLoopReport.findings.countP (·.construct = "For Loop") ≠
        pairHeaders.length := by
  rw [holdsWord_iff (by decide), holdsWord_iff (by decide),
    holdsWord_iff (by decide)]
  refine ⟨?_, ?_, ?_, ?_, ?_, by decide⟩ <;> decide +kernel

end SnippetGrowth
