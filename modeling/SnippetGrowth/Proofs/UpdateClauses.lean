import SnippetGrowth.Profile
import SnippetGrowth.Proofs.Headers
import SnippetGrowth.Proofs.Pieces

/-!
# Update clauses

The header of a loop ends for a scan at its first closing parenthesis, and is
judged by its third clause, or as a whole if it has fewer.  The update clause
of a loop with three clauses is therefore judged as it stands only if no
parenthesis is closed before its end.  A call or a grouping in one of the
first two clauses hides the update, and what stands in front of the
parenthesis is judged in its place.
-/

namespace SnippetGrowth

open Text

namespace Scan

/-! ## Loops with three clauses -/

/-- How many parentheses are open behind a text, unless one is closed that was
not opened. -/
def depthAfter? : Nat → List Char → Option Nat
  | depth, [] => some depth
  | depth, '(' :: rest => depthAfter? (depth + 1) rest
  | 0, ')' :: _ => none
  | depth + 1, ')' :: rest => depthAfter? depth rest
  | depth, _ :: rest => depthAfter? depth rest

def IsBalanced (text : List Char) : Prop := depthAfter? 0 text = some 0

instance (text : List Char) : Decidable (IsBalanced text) :=
  inferInstanceAs (Decidable (depthAfter? 0 text = some 0))

def loopWords : List String := ["for", "while"]

/-- Whether a text can stand as one clause in a header on one line without a
further loop. -/
structure IsClause (text : List Char) : Prop where
  balanced : IsBalanced text
  undivided : ';' ∉ text
  unbroken : '\n' ∉ text
  loopless : ∀ word ∈ loopWords, occursIn word.toList text = false

def clauses (start test update : List Char) : List Char :=
  start ++ ';' :: ' ' :: (test ++ ';' :: ' ' :: update)

def loopSnippet (start test update : String) : String :=
  "for (" ++ start ++ "; " ++ test ++ "; " ++ update ++ ") { }"

theorem toList_loopSnippet (start test update : String) :
    (loopSnippet start test update).toList =
      "for (".toList ++
        (clauses start.toList test.toList update.toList ++ ") { }".toList) := by
  simp [loopSnippet, clauses, String.toList_append]

/-! ## The first closing parenthesis -/

def upToClosing (text : List Char) : List Char := text.takeWhile (· != ')')

theorem upToClosing_of_not_mem {text : List Char} (h : ')' ∉ text) :
    upToClosing text = text := by
  refine List.takeWhile_eq_self_iff.2 fun c hc => ?_
  simpa using ne_of_mem_of_not_mem hc h

theorem upToClosing_append_of_not_mem {front : List Char} (h : ')' ∉ front)
    (rest : List Char) :
    upToClosing (front ++ rest) = front ++ upToClosing rest := by
  refine List.takeWhile_append_of_pos fun c hc => ?_
  simpa using ne_of_mem_of_not_mem hc h

theorem upToClosing_append_closing {front : List Char} (h : ')' ∉ front)
    (rest : List Char) :
    upToClosing (front ++ ')' :: rest) = front := by
  rw [upToClosing_append_of_not_mem h]
  simp [upToClosing]

theorem upToClosing_append_of_mem {front : List Char} (h : ')' ∈ front)
    (rest : List Char) :
    upToClosing (front ++ rest) = upToClosing front := by
  obtain ⟨before, behind, rfl, hbefore⟩ := List.eq_append_cons_of_mem h
  rw [List.append_assoc, List.cons_append, upToClosing_append_closing hbefore,
    upToClosing_append_closing hbefore]

theorem not_mem_upToClosing (text : List Char) : ')' ∉ upToClosing text := by
  intro h
  have hpassed := List.mem_takeWhile_imp h
  simp at hpassed

theorem exists_append_closing_eq (text rest : List Char) :
    ∃ after, text ++ ')' :: rest = upToClosing text ++ ')' :: after := by
  by_cases h : ')' ∈ text
  · obtain ⟨before, behind, rfl, hbefore⟩ := List.eq_append_cons_of_mem h
    exact ⟨behind ++ ')' :: rest, by simp [upToClosing_append_closing hbefore]⟩
  · exact ⟨rest, by rw [upToClosing_of_not_mem h]⟩

/-! ## Words in clauses -/

theorem occursIn_clauses_closed {word : String} (hword : word ∈ loopWords)
    {start test update : List Char}
    (hclauses : ∀ clause ∈ [start, test, update],
      occursIn word.toList clause = false) :
    occursIn word.toList (clauses start test update ++ ") { }".toList) =
      false := by
  have hshape : ∀ word ∈ loopWords, word.toList ≠ [] ∧
      (';' ∉ word.toList ∧ ' ' ∉ word.toList ∧ ')' ∉ word.toList) ∧
        occursIn word.toList [] = false ∧
        occursIn word.toList " { }".toList = false := by decide
  obtain ⟨hne, ⟨hsemicolon, hblank, hclosing⟩, hempty, hend⟩ := hshape word hword
  simp only [List.forall_mem_cons] at hclauses
  obtain ⟨hstart, htest, hupdate, -⟩ := hclauses
  have hleading := occursIn_append_cons hne hblank []
  have htext : clauses start test update ++ ") { }".toList =
      start ++ ';' :: ' ' ::
          (test ++ ';' :: ' ' :: (update ++ ')' :: " { }".toList)) := by
    simp [clauses]
  simp only [List.nil_append] at hleading
  rw [htext, occursIn_append_cons hne hsemicolon, hleading,
    occursIn_append_cons hne hsemicolon, hleading,
    occursIn_append_cons hne hclosing, hempty, hstart, htest, hupdate, hend]
  rfl

/-! ## The header -/

theorem matchesFrom_header?_eq_nil {keyword : String} {text : List Char}
    (h : occursIn keyword.toList text = false) (previous : Option Char) :
    matchesFrom (header? keyword) previous 0 text = [] := by
  refine matchesFrom_eq_nil_of_absent (fun hfound => ?_) h previous
  obtain ⟨⟨blanks, inside, -, -, -, hheader⟩, rfl⟩ := header?_eq_some_iff.1 hfound
  rw [hheader, List.append_assoc]
  exact List.prefix_append _ _

private theorem headers_eq_singleton {keyword : String} {header rest : List Char}
    (hheader : IsHeader keyword.toList header) (hkeyword : keyword.toList ≠ [])
    (h : occursIn keyword.toList rest = false) :
    headers keyword (header ++ rest) = [header] := by
  have hfound : header? keyword none (header ++ rest) = some (header, rest) :=
    header?_eq_some_iff.2 ⟨hheader, rfl⟩
  obtain ⟨c, front, rfl⟩ : ∃ c front, header = c :: front := by
    obtain ⟨blanks, inside, -, -, -, rfl⟩ := hheader
    obtain ⟨k, keyword, hk⟩ := List.exists_cons_of_ne_nil hkeyword
    exact ⟨k, keyword ++ (blanks ++ '(' :: (inside ++ [')'])),
      by rw [hk, List.cons_append]⟩
  rw [List.cons_append] at hfound ⊢
  rw [headers, allMatches, matchesFrom_found hfound, matchesFrom_header?_eq_nil h]

private theorem head?_ne_closing {text : List Char} (h : IsBalanced text) :
    text.head? ≠ some ')' := by
  rintro hhead
  obtain ⟨rest, rfl⟩ := List.head?_eq_some_iff.1 hhead
  simp [IsBalanced, depthAfter?] at h

private theorem upToClosing_clauses_ne_nil {start : List Char}
    (h : IsBalanced start) (test update : List Char) :
    upToClosing (clauses start test update) ≠ [] := by
  have hhead := head?_ne_closing h
  cases start with
  | nil => simp [upToClosing, clauses]
  | cons c start =>
      have hc : c ≠ ')' := by simpa using hhead
      simp [upToClosing, clauses, hc]

section

variable {start test update : List Char}

/-- The header of a loop with three clauses goes up to the first closing
parenthesis in them. -/
theorem headers_for_eq (h : ∀ clause ∈ [start, test, update], IsClause clause) :
    headers "for" ("for (".toList ++
      (clauses start test update ++ ") { }".toList)) =
      ["for (".toList ++ (upToClosing (clauses start test update) ++ [')'])] := by
  have hword : "for" ∈ loopWords := by decide
  obtain ⟨after, hafter⟩ :=
    exists_append_closing_eq (clauses start test update) " { }".toList
  have hclosed : clauses start test update ++ ") { }".toList =
      upToClosing (clauses start test update) ++ ')' :: after := hafter
  have hbehind : occursIn "for".toList after = false := by
    have hall := occursIn_clauses_closed hword fun clause hc =>
      (h clause hc).loopless _ hword
    rw [hclosed, occursIn_append_cons (by decide) (by decide),
      Bool.or_eq_false_iff] at hall
    exact hall.2
  have hbalanced : IsBalanced start := (h start List.mem_cons_self).balanced
  have hheader : IsHeader "for".toList
      ("for (".toList ++ (upToClosing (clauses start test update) ++ [')'])) :=
    ⟨[' '], upToClosing (clauses start test update), by simp; decide,
      upToClosing_clauses_ne_nil hbalanced test update,
      not_mem_upToClosing _, rfl⟩
  rw [hclosed, ← headers_eq_singleton hheader (by decide) hbehind]
  simp

theorem headers_while_eq (h : ∀ clause ∈ [start, test, update], IsClause clause) :
    headers "while"
      ("for (".toList ++ (clauses start test update ++ ") { }".toList)) =
        [] := by
  have hword : "while" ∈ loopWords := by decide
  have habsent := occursIn_clauses_closed hword fun clause hc =>
    (h clause hc).loopless _ hword
  have hopening : ∀ rest, "for (".toList ++ rest = "for ".toList ++ '(' :: rest :=
    fun _ => rfl
  refine matchesFrom_header?_eq_nil ?_ none
  rw [hopening, occursIn_append_cons (by decide) (by decide), habsent]
  decide

theorem lines_eq_singleton
    (h : ∀ clause ∈ [start, test, update], IsClause clause) :
    lines ("for (".toList ++ (clauses start test update ++ ") { }".toList)) =
      ["for (".toList ++ (clauses start test update ++ ") { }".toList)] := by
  simp only [List.forall_mem_cons] at h
  obtain ⟨hstart, htest, hupdate, -⟩ := h
  refine split_of_not_mem ?_
  simp [clauses, hstart.unbroken, htest.unbroken, hupdate.unbroken]

/-! ## The verdict -/

/-- The part of three clauses that is searched for an operator. -/
def judgedPart (start test update : List Char) : List Char :=
  if ')' ∈ start ∨ ')' ∈ test then upToClosing (start ++ ';' :: ' ' :: test)
  else upToClosing update

theorem judgedPart_of_plain (h : ∀ clause ∈ [start, test, update], ')' ∉ clause) :
    judgedPart start test update = update := by
  simp only [List.forall_mem_cons] at h
  obtain ⟨hstart, htest, hupdate, -⟩ := h
  rw [judgedPart, if_neg (by simp [hstart, htest]),
    upToClosing_of_not_mem hupdate]

private theorem updateClause_of_not_mem {inside : List Char} (h : ';' ∉ inside) :
    updateClause inside = inside := by
  rw [updateClause, split_of_not_mem h]

theorem multiplies_updateClause
    (h : ∀ clause ∈ [start, test, update], ';' ∉ clause) :
    multiplies (updateClause (upToClosing (clauses start test update))) =
      multiplies (judgedPart start test update) := by
  simp only [List.forall_mem_cons] at h
  obtain ⟨hstart, htest, hupdate, -⟩ := h
  have hcut : ∀ {clause : List Char}, ';' ∉ clause → ';' ∉ upToClosing clause :=
    fun hclause hmem => hclause ((List.takeWhile_prefix _).subset hmem)
  have hpassed : ∀ {front : List Char}, ')' ∉ front → ∀ rest,
      upToClosing (front ++ ';' :: ' ' :: rest) =
          front ++ ';' :: ' ' :: upToClosing rest := by
    intro front hfront rest
    rw [upToClosing_append_of_not_mem hfront]
    simp [upToClosing]
  unfold clauses judgedPart
  by_cases hfirst : ')' ∈ start
  · rw [if_pos (.inl hfirst), upToClosing_append_of_mem hfirst,
      upToClosing_append_of_mem hfirst, updateClause_of_not_mem (hcut hstart)]
  · rw [hpassed hfirst, hpassed hfirst]
    by_cases hsecond : ')' ∈ test
    · rw [if_pos (.inr hsecond), upToClosing_append_of_mem hsecond, updateClause,
        split_append_cons hstart, split_of_not_mem (by simp [hcut htest])]
    · rw [if_neg (by simp [hfirst, hsecond]), hpassed hsecond, updateClause,
        split_append_cons hstart, ← List.cons_append,
        split_append_cons (by simp [htest]),
        split_of_not_mem (by simp [hcut hupdate])]
      simp [multiplies]

end

theorem nestingReached_singleton (line : List Char) :
    nestingReached [line] = false := by
  simp only [nestingReached, nestingReachedFrom]
  split
  · decide
  · split <;> rfl

theorem isMultiplicativeUpdate_closed (inside : List Char) :
    isMultiplicativeUpdate ("for (".toList ++ (inside ++ [')'])) =
      .ok (multiplies (updateClause inside)) := by
  have hopened : afterParenthesis? ("for (".toList ++ (inside ++ [')'])) =
      some (inside ++ [')']) := by
    simp [afterParenthesis?]
  rw [isMultiplicativeUpdate, hopened]
  simp

def HoldsOperator (text : List Char) : Prop := '*' ∈ text ∨ '/' ∈ text

instance (text : List Char) : Decidable (HoldsOperator text) :=
  inferInstanceAs (Decidable (_ ∨ _))

theorem multiplies_iff {text : List Char} :
    multiplies text = true ↔ HoldsOperator text := by
  simp [multiplies, HoldsOperator]

def loopFinding (judged : List Char) : Finding :=
  if HoldsOperator judged then
    ⟨"For Loop", "Logarithmic for loop (multiplicative update)", .ofLabel "log n"⟩
  else ⟨"For Loop", "Linear for loop", .ofLabel "n"⟩

theorem result_loopFinding (judged : List Char) :
    ((loopFinding judged).result = .ofLabel "log n" ↔ HoldsOperator judged) ∧
      ((loopFinding judged).result = .ofLabel "n" ↔ ¬ HoldsOperator judged) := by
  have hother : Bound.ofLabel "log n" ≠ .ofLabel "n" := by decide
  unfold loopFinding
  split
  · next h => simp [h, hother]
  · next h => simp [h, hother.symm]

private theorem ofHeader_closed (inside : List Char) :
    ofHeader false ("for (".toList ++ (inside ++ [')'])) =
      .ok ⟨loopFinding (updateClause inside), none⟩ := by
  have hlogarithmic : logarithmicHeader = ⟨⟨"For Loop",
      "Logarithmic for loop (multiplicative update)", .ofLabel "log n"⟩,
      none⟩ := by decide
  have hlinear :
      linearHeader = ⟨⟨"For Loop", "Linear for loop", .ofLabel "n"⟩, none⟩ := by
        decide
  simp only [ofHeader, isMultiplicativeUpdate_closed, Bool.false_eq_true,
    if_false, Except.map, multiplies_iff, loopFinding]
  split
  · rw [hlogarithmic]
  · rw [hlinear]

private theorem loopFinding_congr {judged other : List Char}
    (h : multiplies judged = multiplies other) :
    loopFinding judged = loopFinding other := by
  simp only [loopFinding, ← multiplies_iff, h]

private theorem scanHeaders_loop {start test update : List Char}
    (h : ∀ clause ∈ [start, test, update], IsClause clause) :
    scanHeaders ("for (".toList ++
      (clauses start test update ++ ") { }".toList)) =
      .ok { findings := [loopFinding (judgedPart start test update)] } := by
  have hundivided : ∀ clause ∈ [start, test, update], ';' ∉ clause :=
    fun clause hclause => (h clause hclause).undivided
  rw [scanHeaders, lines_eq_singleton h, nestingReached_singleton,
    headers_for_eq h, headers_while_eq h, List.mapM_cons, ofHeader_closed,
    loopFinding_congr (multiplies_updateClause hundivided)]
  rfl

end Scan

open Scan

/--
A loop with three clauses is the only finding of its snippet.  It is
logarithmic exactly if an operator stands in the part of the clauses that is
judged, and linear otherwise.  So the update decides exactly if that part
holds an operator just when the update does.  Without parentheses in the
clauses that part is the update.
-/
theorem scan_loopSnippet (parse : Parser) (start test update : String)
    (h : ∀ clause ∈ [start, test, update], IsClause clause.toList) :
    let judged := judgedPart start.toList test.toList update.toList
    ∃ finding : Finding,
      Profile.c.scan parse (loopSnippet start test update) =
        .ok { findings := [finding] } ∧
      finding.construct = "For Loop" ∧
      (finding.result = .ofLabel "log n" ↔ HoldsOperator judged) ∧
      (finding.result = .ofLabel "n" ↔ ¬ HoldsOperator judged) ∧
      ((finding.result = .ofLabel "log n" ↔ HoldsOperator update.toList) ↔
        (HoldsOperator judged ↔ HoldsOperator update.toList)) ∧
      ((∀ clause ∈ [start, test, update], ')' ∉ clause.toList) →
          judged = update.toList) := by
  intro judged
  have hclauses : ∀ clause ∈ [start.toList, test.toList, update.toList],
      IsClause clause := by
    simpa using h
  have hscan : Profile.c.scan parse (loopSnippet start test update) =
      .ok { findings := [loopFinding judged] } := by
    rw [Profile.scan, toList_loopSnippet]
    exact scanHeaders_loop hclauses
  obtain ⟨hlogarithmic, hlinear⟩ := result_loopFinding judged
  refine ⟨loopFinding judged, hscan, ?_, hlogarithmic, hlinear, ?_,
    fun plain => ?_⟩
  · unfold loopFinding
    split <;> rfl
  · rw [hlogarithmic]
  · exact judgedPart_of_plain (by simpa using plain)

theorem isClause_of_decided {text : List Char}
    (h : IsBalanced text ∧ ';' ∉ text ∧ '\n' ∉ text ∧
      ∀ word ∈ loopWords, occursIn word.toList text = false) : IsClause text :=
  ⟨h.1, h.2.1, h.2.2.1, h.2.2.2⟩

theorem scan_loopSnippet_calledCondition :
    (∀ clause ∈ ["i = n", "i < f(n / 2)", "i++"], IsClause clause.toList) ∧
      HoldsOperator
        (judgedPart "i = n".toList "i < f(n / 2)".toList "i++".toList) ∧
      ∃ finding : Finding,
        Profile.c.scan (Parser.knowing []) "for (i = n; i < f(n / 2); i++) { }" =
          .ok { findings := [finding] } ∧
        finding.result = .ofLabel "log n" := by
  have hclauses : ∀ clause ∈ ["i = n", "i < f(n / 2)", "i++"],
      IsClause clause.toList := by
    simp only [List.forall_mem_cons]
    exact ⟨isClause_of_decided (by decide), isClause_of_decided (by decide),
      isClause_of_decided (by decide), by simp⟩
  have hjudged :
      HoldsOperator
        (judgedPart "i = n".toList "i < f(n / 2)".toList "i++".toList) := by
    decide
  obtain ⟨finding, hscan, -, hlogarithmic, -⟩ := scan_loopSnippet _ _ _ _ hclauses
  exact ⟨hclauses, hjudged, finding, hscan, hlogarithmic.2 hjudged⟩

/-- A call in the first clause hides an update that multiplies. -/
theorem scan_loopSnippet_hiddenUpdate :
    ¬ ∀ start test update : String,
      (∀ clause ∈ [start, test, update], IsClause clause.toList) →
      ∃ finding : Finding,
        Profile.c.scan (Parser.knowing []) (loopSnippet start test update) =
          .ok { findings := [finding] } ∧
        finding.construct = "For Loop" ∧
        finding.result = .ofLabel (if HoldsOperator update.toList then "log n"
            else "n") := by
  intro claimed
  have hclauses : ∀ clause ∈ ["i = f(0)", "i < n", "i *= 2"],
      IsClause clause.toList := by
    simp only [List.forall_mem_cons]
    exact ⟨isClause_of_decided (by decide), isClause_of_decided (by decide),
      isClause_of_decided (by decide), by simp⟩
  have hscan :
      Profile.c.scan (Parser.knowing [])
        (loopSnippet "i = f(0)" "i < n" "i *= 2") =
      .ok { findings := [⟨"For Loop", "Linear for loop", .ofLabel "n"⟩] } := by
        decide +kernel
  obtain ⟨finding, hfound, -, hresult⟩ := claimed _ _ _ hclauses
  cases hscan.symm.trans hfound
  revert hresult
  decide

end SnippetGrowth
