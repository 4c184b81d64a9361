import Mathlib.Data.List.Induction
import SnippetGrowth.Profile
import SnippetGrowth.Proofs.Headers
import SnippetGrowth.Proofs.Pieces

/-!
# Nesting by lines

In a snippet in the manner of C one counter goes over all lines.  It rises at a
line that mentions a loop keyword and falls at any other line with a closing
brace, below zero if need be, and only where it rises it is compared with the
threshold.  What it has counted behind some lines is their level, so nesting is
a statement about levels of prefixes, and lines in front of a snippet only
shift the threshold.
-/

namespace SnippetGrowth

open Text

namespace Scan

/-! ## Levels -/

def MentionsLoop (line : List Char) : Prop :=
  "for".toList <:+: line ∨ "while".toList <:+: line

theorem opensLevel_iff {line : List Char} :
    opensLevel line = true ↔ MentionsLoop line := by
  rw [opensLevel, Bool.or_eq_true, occursIn_iff, occursIn_iff, MentionsLoop]

instance : DecidablePred MentionsLoop :=
  fun _ => decidable_of_iff _ opensLevel_iff

/-- Whether a line has a closing brace and mentions no loop keyword. -/
def OnlyCloses (line : List Char) : Prop := ¬ MentionsLoop line ∧ '\x7d' ∈ line

theorem closesLevel_iff {line : List Char} :
    closesLevel line = true ↔ OnlyCloses line := by
  rw [closesLevel, Bool.and_eq_true, Bool.not_eq_true', List.contains_iff_mem,
    OnlyCloses, ← opensLevel_iff, Bool.not_eq_true]

instance : DecidablePred OnlyCloses := fun _ => decidable_of_iff _ closesLevel_iff

/-- The lines that mention a loop keyword, less the other lines with a closing brace. -/
def levelBehind (lines : List (List Char)) : Int :=
  lines.countP (MentionsLoop ·) - lines.countP (OnlyCloses ·)

theorem levelBehind_append (front rest : List (List Char)) :
    levelBehind (front ++ rest) = levelBehind front + levelBehind rest := by
  simp only [levelBehind, List.countP_append]
  omega

theorem levelBehind_of_mentions {line : List Char} (h : MentionsLoop line) :
    levelBehind [line] = 1 := by
  simp [levelBehind, OnlyCloses, h]

theorem levelBehind_of_not_mentions {line : List Char} (h : ¬ MentionsLoop line) :
    levelBehind [line] = if '\x7d' ∈ line then -1 else 0 := by
  by_cases hbrace : '\x7d' ∈ line <;> simp [levelBehind, OnlyCloses, h, hbrace]

theorem levelBehind_of_loopless {lines : List (List Char)}
    (h : ∀ line ∈ lines, ¬ MentionsLoop line) :
    levelBehind lines = -(lines.countP ('\x7d' ∈ ·) : Nat) := by
  have hmentions : lines.countP (MentionsLoop ·) = 0 := by
    rw [List.countP_eq_zero]
    simpa using h
  have hcloses : lines.countP (OnlyCloses ·) = lines.countP ('\x7d' ∈ ·) :=
    List.countP_congr fun line hline => by simp [OnlyCloses, h line hline]
  rw [levelBehind, hmentions, hcloses]
  omega

/-! ## The counter -/

theorem nestingReachedFrom_cons (threshold depth : Int) (line : List Char)
    (rest : List (List Char)) :
    nestingReachedFrom threshold depth (line :: rest) = true ↔
      (MentionsLoop line ∧ threshold ≤ depth + levelBehind [line]) ∨
        nestingReachedFrom threshold (depth + levelBehind [line]) rest =
          true := by
  rw [nestingReachedFrom]
  by_cases hopens : MentionsLoop line
  · rw [if_pos (opensLevel_iff.2 hopens), levelBehind_of_mentions hopens]
    simp [hopens]
  · rw [if_neg (fun h => hopens (opensLevel_iff.1 h)),
      levelBehind_of_not_mentions hopens]
    by_cases hbrace : '\x7d' ∈ line
    · rw [if_pos (closesLevel_iff.2 ⟨hopens, hbrace⟩), if_pos hbrace,
        Int.sub_eq_add_neg]
      simp [hopens]
    · rw [if_neg (fun h => hbrace (closesLevel_iff.1 h).2), if_neg hbrace]
      simp [hopens]

/-- The counter reaches the threshold at a line that mentions a loop, by the
level up to there. -/
theorem nestingReachedFrom_iff {threshold depth : Int}
    {lines : List (List Char)} :
    nestingReachedFrom threshold depth lines = true ↔
      ∃ front line rest, lines = front ++ line :: rest ∧ MentionsLoop line ∧
        threshold ≤ depth + levelBehind (front ++ [line]) := by
  induction lines generalizing depth with
  | nil => simp [nestingReachedFrom]
  | cons first others ih =>
      rw [nestingReachedFrom_cons, ih]
      constructor
      · rintro (⟨hmentions, hlevel⟩ | ⟨front, line, rest, rfl, hmentions, hlevel⟩)
        · exact ⟨[], first, others, rfl, hmentions, hlevel⟩
        · refine ⟨first :: front, line, rest, rfl, hmentions, ?_⟩
          rwa [List.cons_append, ← List.singleton_append, levelBehind_append,
            ← Int.add_assoc]
      · rintro ⟨front, line, rest, hlines, hmentions, hlevel⟩
        cases front with
        | nil =>
            obtain ⟨rfl, rfl⟩ := List.cons.inj hlines
            exact .inl ⟨hmentions, hlevel⟩
        | cons _ front =>
            obtain ⟨rfl, rfl⟩ := List.cons.inj hlines
            refine .inr ⟨front, line, rest, rfl, hmentions, ?_⟩
            rwa [List.cons_append, ← List.singleton_append, levelBehind_append,
              ← Int.add_assoc] at hlevel

theorem nestingReachedFrom_add (threshold depth shift : Int)
    (lines : List (List Char)) :
    nestingReachedFrom threshold (depth + shift) lines =
      nestingReachedFrom (threshold - shift) depth lines := by
  rw [Bool.eq_iff_iff, nestingReachedFrom_iff, nestingReachedFrom_iff]
  have hdistance : ∀ level : Int,
      threshold ≤ depth + shift + level ↔
        threshold - shift ≤ depth + level := by omega
  simp only [hdistance]

theorem nestingReachedFrom_le {threshold lower depth : Int}
    {lines : List (List Char)} (hle : lower ≤ threshold)
    (h : nestingReachedFrom threshold depth lines = true) :
    nestingReachedFrom lower depth lines = true := by
  obtain ⟨front, line, rest, hlines, hmentions, hlevel⟩ :=
    nestingReachedFrom_iff.1 h
  exact nestingReachedFrom_iff.2 ⟨front, line, rest, hlines, hmentions,
    Int.le_trans hle hlevel⟩

theorem nestingReachedFrom_append_of_loopless {front : List (List Char)}
    (h : ∀ line ∈ front, ¬ MentionsLoop line) (threshold depth : Int)
    (rest : List (List Char)) :
    nestingReachedFrom threshold depth (front ++ rest) =
      nestingReachedFrom threshold (depth + levelBehind front) rest := by
  induction front generalizing depth with
  | nil => simp [levelBehind]
  | cons line front ih =>
      obtain ⟨hline, hfront⟩ := List.forall_mem_cons.1 h
      rw [← List.singleton_append, levelBehind_append, ← Int.add_assoc,
        ← ih hfront, Bool.eq_iff_iff, List.singleton_append, List.cons_append,
        nestingReachedFrom_cons]
      simp [hline]

/-! ## Levels of prefixes -/

private theorem exists_mention_of_le_levelBehind {threshold : Int}
    (hthreshold : 1 ≤ threshold) {lines : List (List Char)}
    (h : threshold ≤ levelBehind lines) :
    ∃ front line rest, lines = front ++ line :: rest ∧ MentionsLoop line ∧
      threshold ≤ levelBehind (front ++ [line]) := by
  induction lines using List.reverseRecOn with
  | nil =>
      have hzero : levelBehind [] = 0 := rfl
      omega
  | append_singleton lines last ih =>
      by_cases hlast : MentionsLoop last
      · exact ⟨lines, last, [], rfl, hlast, h⟩
      · have hdrop : levelBehind [last] ≤ 0 := by
          rw [levelBehind_of_not_mentions hlast]
          split <;> omega
        rw [levelBehind_append] at h
        obtain ⟨front, line, rest, rfl, hmentions, hlevel⟩ := ih (by omega)
        exact ⟨front, line, rest ++ [last], by simp, hmentions, hlevel⟩

private theorem exists_place_iff {lines : List (List Char)}
    {p : List (List Char) → List Char → Prop} :
    (∃ place line, lines[place]? = some line ∧ p (lines.take (place + 1)) line) ↔
      ∃ front line rest, lines = front ++ line :: rest ∧
        p (front ++ [line]) line := by
  constructor
  · rintro ⟨place, line, hline, hp⟩
    obtain ⟨hplace, rfl⟩ := List.getElem?_eq_some_iff.1 hline
    rw [List.take_succ_eq_append_getElem hplace] at hp
    exact ⟨_, _, lines.drop (place + 1), by simp, hp⟩
  · rintro ⟨front, line, rest, rfl, hp⟩
    refine ⟨front.length, line, by simp, ?_⟩
    rwa [List.take_append, List.take_of_length_le (Nat.le_succ _),
      Nat.add_sub_cancel_left]

/--
Nesting is reached exactly if, at some line that mentions a loop, the level up
to and with this line is at least the threshold.  For a threshold from one on
the level of any prefix may be taken instead.
-/
theorem nestingReached_iff_levels (lines : List (List Char)) (threshold : Int) :
    (nestingReached lines threshold = true ↔
      ∃ place line, lines[place]? = some line ∧ MentionsLoop line ∧
        threshold ≤ levelBehind (lines.take (place + 1))) ∧
    (1 ≤ threshold →
      (nestingReached lines threshold = true ↔
        ∃ front, front <+: lines ∧ threshold ≤ levelBehind front)) := by
  have hsplit : nestingReached lines threshold = true ↔
      ∃ front line rest, lines = front ++ line :: rest ∧ MentionsLoop line ∧
        threshold ≤ levelBehind (front ++ [line]) := by
    rw [nestingReached, nestingReachedFrom_iff]
    simp only [Int.zero_add]
  constructor
  · rw [hsplit]
    exact (exists_place_iff
      (p := fun front line => MentionsLoop line ∧
        threshold ≤ levelBehind front)).symm
  · intro hthreshold
    rw [hsplit]
    constructor
    · rintro ⟨front, line, rest, rfl, -, hlevel⟩
      exact ⟨front ++ [line], ⟨rest, by simp⟩, hlevel⟩
    · rintro ⟨front, ⟨behind, rfl⟩, hlevel⟩
      obtain ⟨before, line, rest, rfl, hmentions, hlevel⟩ :=
        exists_mention_of_le_levelBehind hthreshold hlevel
      exact ⟨before, line, rest ++ behind, by simp, hmentions, hlevel⟩

def unevenLines : List (List Char) :=
  ["for (;;) \x7b".toList, "\x7d".toList, "while (x) \x7b".toList,
    "printf(\"format\");".toList, "\x7d \x7d".toList, "\x7d".toList,
    "\x7d".toList]

theorem nestingReached_iff_levels_unevenLines :
    (∃ place line, unevenLines[place]? = some line ∧ MentionsLoop line ∧
      2 ≤ levelBehind (unevenLines.take (place + 1))) ∧
    (1 : Int) ≤ 3 ∧ nestingReached unevenLines 3 = false ∧
      ¬ ∃ front, front <+: unevenLines ∧ 3 ≤ levelBehind front := by
  have hreached : nestingReached unevenLines 2 = true := by decide
  have hmissed : nestingReached unevenLines 3 = false := by decide
  refine ⟨(nestingReached_iff_levels unevenLines 2).1.1 hreached,
    by decide, hmissed, ?_⟩
  rw [← (nestingReached_iff_levels unevenLines 3).2 (by decide), hmissed]
  exact Bool.false_ne_true

/-! ## Lines in front of a snippet -/

theorem nestingReached_append_of_loopless {front : List (List Char)}
    (h : ∀ line ∈ front, ¬ MentionsLoop line) (rest : List (List Char))
    (threshold : Int) :
    nestingReached (front ++ rest) threshold =
      nestingReached rest (threshold + front.countP ('\x7d' ∈ ·)) := by
  rw [nestingReached, nestingReachedFrom_append_of_loopless h,
    nestingReachedFrom_add, levelBehind_of_loopless h, Int.sub_neg,
    nestingReached]

private theorem mentionsLoop_iff_exists_line (text : List Char) :
    MentionsLoop text ↔ ∃ line ∈ lines text, MentionsLoop line := by
  have hwords : ∀ word ∈ ["for".toList, "while".toList], word ≠ [] ∧
      '\n' ∉ word := by decide
  have hsome : ∀ word ∈ ["for".toList, "while".toList],
      (word <:+: text ↔ ∃ line ∈ lines text, word <:+: line) :=
    fun word hword =>
      isInfix_iff_exists_piece (hwords word hword).1 (hwords word hword).2 text
  simp only [MentionsLoop, hsome _ List.mem_cons_self,
    hsome _ (List.mem_cons_of_mem _ List.mem_cons_self), ← exists_or,
    ← and_or_left]

private theorem headers_append_of_absent {keyword : String}
    (hline : '\n' ∉ keyword.toList) {front : List Char}
    (h : ¬ keyword.toList <:+: front) (code : List Char) :
    headers keyword (front ++ '\n' :: code) = headers keyword code := by
  have hmissed : ∀ c later, c :: later <:+ front ++ ['\n'] → ∀ previous,
      header? keyword previous (c :: (later ++ code)) = none := by
    intro c later hlater previous
    rw [Option.eq_none_iff_forall_ne_some]
    rintro ⟨header, rest⟩ hfound
    obtain ⟨⟨blanks, inside, -, -, -, rfl⟩, htext⟩ := header?_eq_some_iff.1 hfound
    have hstarts : keyword.toList <+: (c :: later) ++ code := by
      rw [List.cons_append, htext, List.append_assoc]
      exact List.prefix_append _ _
    rcases List.suffix_concat_iff.1 hlater with hnil | ⟨tail, htail, hsuffix⟩
    · simp at hnil
    · rw [htail, List.append_assoc] at hstarts
      exact h ((isPrefix_of_append_cons hline hstarts).isInfix.trans
        hsuffix.isInfix)
  have hsearch := matchesFrom_append_of_missed hmissed none
  rw [List.append_assoc, List.singleton_append] at hsearch
  rw [headers, headers, allMatches, allMatches, hsearch]
  exact matchesFrom_eq_of_blind (fun _ _ => rfl) _ 0 code

private theorem scanHeaders_append_of_loopless {front : List Char}
    (h : ¬ MentionsLoop front)
    {code : List Char} (hnested : nestingReached (lines (front ++ '\n' :: code)) =
      nestingReached (lines code)) :
    scanHeaders (front ++ '\n' :: code) = scanHeaders code := by
  rw [MentionsLoop, not_or] at h
  rw [scanHeaders, scanHeaders, hnested, headers_append_of_absent (by decide) h.1,
    headers_append_of_absent (by decide) h.2]

end Scan

open Scan

/--
Lines without loops in front of a snippet raise the threshold of nesting by the
number of those that hold a closing brace.  So they never make a snippet nested
that is not; they leave all snippets as they are exactly if none of them holds
a closing brace; and a scan in the manner of C reports the same with and
without them unless nesting gets lost by the higher threshold.
-/
theorem loopless_front_only_hides (front : List (List Char))
    (loopless : ∀ line ∈ front, ¬ MentionsLoop line) :
    (∀ rest threshold, nestingReached (front ++ rest) threshold =
        nestingReached rest (threshold + front.countP ('\x7d' ∈ ·))) ∧
    (∀ rest threshold, nestingReached (front ++ rest) threshold = true →
        nestingReached rest threshold = true) ∧
    ((∀ rest threshold, 1 ≤ threshold →
        nestingReached (front ++ rest) threshold =
          nestingReached rest threshold) ↔
      ∀ line ∈ front, '\x7d' ∉ line) ∧
    ∀ (parse : Parser) (helper code : String), Text.lines helper.toList = front →
      nestingReached (Text.lines code.toList) (2 + front.countP ('\x7d' ∈ ·)) =
        nestingReached (Text.lines code.toList) →
      Profile.c.scan parse (helper ++ "\n" ++ code) =
        Profile.c.scan parse code := by
  have hshift := nestingReached_append_of_loopless loopless
  have hclosed : front.countP ('\x7d' ∈ ·) = 0 ↔
      ∀ line ∈ front, '\x7d' ∉ line := by
    simp [List.countP_eq_zero]
  refine ⟨hshift, fun rest threshold h => ?_,
    ⟨fun h => ?_, fun h rest threshold _ => ?_⟩, ?_⟩
  · rw [hshift] at h
    exact nestingReachedFrom_le (by omega) h
  · have hsingle := h ["for".toList] 1 (by decide)
    have hreached : nestingReached ["for".toList] 1 = true := by decide
    rw [hshift, hreached, nestingReached, nestingReachedFrom_cons] at hsingle
    rw [← hclosed]
    rcases hsingle with ⟨-, hlevel⟩ | hnone
    · rw [levelBehind_of_mentions (by decide)] at hlevel
      omega
    · simp [nestingReachedFrom] at hnone
  · rw [hshift, hclosed.2 h]
    simp
  · rintro parse helper code rfl hnested
    have htext : (helper ++ "\n" ++ code).toList =
        helper.toList ++ '\n' :: code.toList := by
      simp [String.toList_append]
    have hfront : ¬ MentionsLoop helper.toList := by
      rw [mentionsLoop_iff_exists_line]
      rintro ⟨line, hline, hmentions⟩
      exact loopless line hline hmentions
    rw [Profile.scan, Profile.scan, htext]
    refine scanHeaders_append_of_loopless hfront ?_
    rw [Text.lines, split_append_separator]
    exact (hshift _ 2).trans hnested

def helperSnippet : String := "int twice(int x) \x7b\n  return 2 * x;\n\x7d"

def nestedSnippet : String :=
  "for (i = 0; i < n; i++)\n  for (j = 0; j < n; j++)\n    s += twice(j);"

theorem loopless_front_only_hides_helperSnippet :
    (∀ line ∈ Text.lines helperSnippet.toList, ¬ MentionsLoop line) ∧
      nestingReached
        (Text.lines helperSnippet.toList ++ Text.lines nestedSnippet.toList) 2 =
        nestingReached (Text.lines nestedSnippet.toList) (2 + 1) ∧
      nestingReached (Text.lines "while (x)".toList) (2 + 1) =
        nestingReached (Text.lines "while (x)".toList) ∧
      Profile.c.scan (Parser.knowing []) (helperSnippet ++ "\n" ++ "while (x)") =
        Profile.c.scan (Parser.knowing []) "while (x)" := by
  have loopless : ∀ line ∈ Text.lines helperSnippet.toList,
      ¬ MentionsLoop line := by decide
  have hbraces : (Text.lines helperSnippet.toList).countP ('\x7d' ∈ ·) = 1 := by
    decide
  obtain ⟨hshift, -, -, hscan⟩ := loopless_front_only_hides _ loopless
  rw [hbraces] at hshift hscan
  have hnested : nestingReached (Text.lines "while (x)".toList) (2 + 1) =
      nestingReached (Text.lines "while (x)".toList) := by decide
  exact ⟨loopless, hshift _ 2, hnested, hscan _ _ _ rfl hnested⟩

/-- The brace of a helper function takes away the level of the outer loop behind it. -/
theorem loops_hidden_by_helper :
    (∀ line ∈ Text.lines helperSnippet.toList, ¬ MentionsLoop line) ∧
      nestingReached (Text.lines nestedSnippet.toList) 2 = true ∧
      nestingReached
        (Text.lines helperSnippet.toList ++ Text.lines nestedSnippet.toList) 2 =
        false ∧
      ¬ ∀ front rest : List (List Char), (∀ line ∈ front, ¬ MentionsLoop line) →
        ∀ threshold : Int, 1 ≤ threshold →
          nestingReached (front ++ rest) threshold =
            nestingReached rest threshold := by
  have loopless : ∀ line ∈ Text.lines helperSnippet.toList,
      ¬ MentionsLoop line := by decide
  have hreached : nestingReached (Text.lines nestedSnippet.toList) 2 = true := by
    decide
  have hhidden : nestingReached
      (Text.lines helperSnippet.toList ++ Text.lines nestedSnippet.toList) 2 =
        false := by decide
  refine ⟨loopless, hreached, hhidden, fun h => ?_⟩
  have hsame := h _ (Text.lines nestedSnippet.toList) loopless 2 (by decide)
  rw [hreached, hhidden] at hsame
  contradiction

end SnippetGrowth
