import SnippetGrowth.Proofs.Appending
import SnippetGrowth.Proofs.Searches

/-!
# Where headers stand

The headers that a scan reports can be described without the search.  They
are texts that begin with the keyword and end at the first closing parenthesis
behind the opening one, they stand apart and in order, and any other such text
starts inside one of them.  No two lists are laid out like this over the same
snippet, so the description leaves no choice.
-/

namespace SnippetGrowth

namespace Scan

open Text

/-! ## Layouts -/

/-- A find with the place where it starts and the place where it stops. -/
structure Placed (α : Type) where
  start : Nat
  found : α
  stop : Nat

/-- Whether finds from a place on are listed in order and apart, and every other
find from there on starts inside an earlier one that is listed. -/
structure IsLayout {α : Type} (finds : Nat → α → Nat → Prop) (place : Nat)
    (listed : List (Placed α)) : Prop where
  sound : ∀ find ∈ listed, place ≤ find.start ∧
    finds find.start find.found find.stop
  apart : listed.Pairwise fun earlier later => earlier.stop ≤ later.start
  covering : ∀ start found stop, finds start found stop → place ≤ start →
    ⟨start, found, stop⟩ ∈ listed ∨
      ∃ earlier ∈ listed, earlier.start < start ∧ start < earlier.stop

variable {α : Type} {finds : Nat → α → Nat → Prop}

namespace IsLayout

variable {place : Nat} {first : Placed α} {others : List (Placed α)}

theorem eq_nil_iff {listed : List (Placed α)} (h : IsLayout finds place listed) :
    listed = [] ↔ ∀ start found stop, finds start found stop → start < place := by
  constructor
  · rintro rfl start found stop hfinds
    by_contra hahead
    have hcovered := h.covering start found stop hfinds (Nat.not_lt.1 hahead)
    simp at hcovered
  · intro hnone
    rw [List.eq_nil_iff_forall_not_mem]
    intro find hfind
    obtain ⟨hahead, hfinds⟩ := h.sound find hfind
    have hbehind := hnone _ _ _ hfinds
    omega

private theorem start_le (advancing : IsAdvancing finds)
    (h : IsLayout finds place (first :: others)) {start stop : Nat} {found : α}
    (hfinds : finds start found stop) (ahead : place ≤ start) :
    first.start ≤ start := by
  have hlisted : ∀ find ∈ first :: others, first.start ≤ find.start := by
    intro find hfind
    rcases List.mem_cons.1 hfind with rfl | hother
    · exact Nat.le_refl _
    · have hstop := (List.pairwise_cons.1 h.apart).1 find hother
      have hlt := advancing.lt_stop (h.sound first List.mem_cons_self).2
      omega
  rcases h.covering start found stop hfinds ahead with
    hmem | ⟨earlier, hmem, hbefore, -⟩
  · exact hlisted _ hmem
  · exact Nat.le_trans (hlisted _ hmem) (Nat.le_of_lt hbefore)

theorem tail (advancing : IsAdvancing finds)
    (h : IsLayout finds place (first :: others)) :
    IsLayout finds first.stop others := by
  obtain ⟨hbehind, hothers⟩ := List.pairwise_cons.1 h.apart
  obtain ⟨hahead, hfirst⟩ := h.sound first List.mem_cons_self
  have hlt := advancing.lt_stop hfirst
  refine ⟨fun find hfind => ⟨hbehind find hfind, ?_⟩, hothers, ?_⟩
  · exact (h.sound find (List.mem_cons_of_mem first hfind)).2
  · intro start found stop hfinds hstop
    rcases h.covering start found stop hfinds (by omega) with
      hmem | ⟨earlier, hmem, hinside⟩
    · rcases List.mem_cons.1 hmem with rfl | hmem
      · exact absurd hlt (Nat.not_lt.2 hstop)
      · exact .inl hmem
    · rcases List.mem_cons.1 hmem with rfl | hmem
      · omega
      · exact .inr ⟨earlier, hmem, hinside⟩

theorem cons (advancing : IsAdvancing finds)
    (hfirst : finds first.start first.found first.stop)
    (ahead : place ≤ first.start)
    (leftmost : ∀ start found stop, finds start found stop → place ≤ start →
    first.start ≤ start)
    (h : IsLayout finds first.stop others) :
    IsLayout finds place (first :: others) := by
  have hlt := advancing.lt_stop hfirst
  refine ⟨?_,
    List.pairwise_cons.2 ⟨fun find hfind => (h.sound find hfind).1, h.apart⟩,
    ?_⟩
  · intro find hfind
    rcases List.mem_cons.1 hfind with rfl | hother
    · exact ⟨ahead, hfirst⟩
    · obtain ⟨hstop, hfinds⟩ := h.sound find hother
      exact ⟨by omega, hfinds⟩
  · intro start found stop hfinds hplace
    have hle := leftmost start found stop hfinds hplace
    rcases Nat.lt_or_ge start first.stop with hinside | hbehind
    · rcases Nat.eq_or_lt_of_le hle with rfl | hafter
      · obtain ⟨rfl, rfl⟩ := advancing.unique hfirst hfinds
        exact .inl List.mem_cons_self
      · exact .inr ⟨first, List.mem_cons_self, hafter, hinside⟩
    · rcases h.covering start found stop hfinds hbehind with
        hmem | ⟨earlier, hmem, hin⟩
      · exact .inl (List.mem_cons_of_mem first hmem)
      · exact .inr ⟨earlier, List.mem_cons_of_mem first hmem, hin⟩

/-- All layouts from a place are the same. -/
theorem unique (advancing : IsAdvancing finds) {listed other : List (Placed α)}
    (h : IsLayout finds place listed) (hother : IsLayout finds place other) :
    listed = other := by
  -- The first finds are both leftmost, and the rest is a layout from where they
  -- stop.
  induction listed generalizing place other with
  | nil => exact (hother.eq_nil_iff.2 (h.eq_nil_iff.1 rfl)).symm
  | cons first listed ih =>
      cases other with
      | nil => exact h.eq_nil_iff.2 (hother.eq_nil_iff.1 rfl)
      | cons rival other =>
          obtain ⟨hahead, hfirst⟩ := h.sound first List.mem_cons_self
          obtain ⟨hrivalAhead, hrival⟩ := hother.sound rival List.mem_cons_self
          obtain ⟨start, found, stop⟩ := first
          obtain ⟨rivalStart, rivalFound, rivalStop⟩ := rival
          obtain rfl : start = rivalStart := Nat.le_antisymm
            (h.start_le advancing hrival hrivalAhead)
              (hother.start_le advancing hfirst hahead)
          obtain ⟨rfl, rfl⟩ := advancing.unique hfirst hrival
          rw [ih (h.tail advancing) (hother.tail advancing)]

end IsLayout

theorem Sweeps.exists_isLayout (advancing : IsAdvancing finds) {place : Nat}
    {founds : List α} (h : Sweeps finds place founds) :
    ∃ listed, IsLayout finds place listed ∧ listed.map (·.found) = founds := by
  induction h with
  | done h =>
      refine ⟨[],
        ⟨by simp, List.Pairwise.nil, fun start found stop hfinds hplace => ?_⟩,
        rfl⟩
      exact absurd (h start found stop hfinds) (Nat.not_lt.2 hplace)
  | @take place start stop found others ahead here leftmost onward ih =>
      obtain ⟨listed, hlayout, hfounds⟩ := ih
      refine ⟨⟨start, found, stop⟩ :: listed,
        hlayout.cons advancing here ahead leftmost, ?_⟩
      rw [List.map_cons, hfounds]

/-! ## Places of headers -/

/-- Whether a header with a given keyword starts and stops at places of a text. -/
def IsHeaderAt (keyword code : List Char) (start : Nat) (header : List Char)
    (stop : Nat) : Prop :=
  ∃ before after, code = before ++ (header ++ after) ∧ before.length = start ∧
    IsHeader keyword header ∧ stop = start + header.length

private theorem foundAt_header?_iff {keyword : String} {code header : List Char}
    {start stop : Nat} :
    FoundAt (header? keyword) code start header stop ↔
      IsHeaderAt keyword.toList code start header stop := by
  constructor
  · rintro ⟨before, text, after, rfl, rfl, -, hfound, hstop⟩
    obtain ⟨hheader, rfl⟩ := header?_eq_some_iff.1 hfound
    simp only [List.length_append] at hstop
    exact ⟨before, after, rfl, rfl, hheader, by omega⟩
  · rintro ⟨before, after, rfl, rfl, hheader, rfl⟩
    have hne : header ++ after ≠ [] :=
      List.ne_nil_of_mem
        (List.mem_append_left _ (closing_mem_of_isHeader hheader))
    refine ⟨before, _, after, rfl, rfl, hne,
      header?_eq_some_iff.2 ⟨hheader, rfl⟩, ?_⟩
    simp [Nat.add_assoc]

private theorem foundAt_header?_eq (keyword : String) (code : List Char) :
    FoundAt (header? keyword) code = IsHeaderAt keyword.toList code := by
  funext start header stop
  exact propext foundAt_header?_iff

/-- Headers are laid out over their snippet, in one way only. -/
theorem exists_layout_headers {keyword : String} (hkeyword : keyword.toList ≠ [])
    (hsolid : IsSolid keyword.toList) (code : List Char) :
    ∃ placed, headers keyword code = placed.map (·.found) ∧
      ∀ listed, IsLayout (IsHeaderAt keyword.toList code) 0 listed ↔
        listed = placed := by
  have anchored := isAnchored_header? hkeyword hsolid
  have advancing := isAdvancing_foundAt anchored code
  obtain ⟨placed, hlayout, hfounds⟩ :=
    (sweeps_allMatches anchored code).exists_isLayout advancing
  rw [← foundAt_header?_eq]
  refine ⟨placed, hfounds.symm, fun listed =>
    ⟨fun h => h.unique advancing hlayout, ?_⟩⟩
  rintro rfl
  exact hlayout

private theorem dropBlanks_of_mem_headers {keyword : String}
    {code header : List Char} (h : header ∈ headers keyword code) :
    (dropBlanks (header.drop keyword.toList.length)).head? = some '(' := by
  obtain ⟨blanks, inside, hblanks, -, -, rfl⟩ := isHeader_of_mem_headers h
  rw [List.drop_left, dropBlanks_append hblanks (by rintro _ ⟨⟩; decide),
    List.head?_cons]

/-! ## Reported headers -/

theorem construct_ofHeader {nested : Bool} {header : List Char} {o : Observation}
    (returned : ofHeader nested header = .ok o) :
    o.finding.construct = "For Loop" := by
  unfold ofHeader at returned
  split at returned
  · cases returned
    rfl
  · obtain ⟨multiplicative, -, rfl⟩ := map_eq_ok_iff.1 returned
    cases multiplicative <;> rfl

end Scan

open Scan

/--
The headers of either keyword are laid out over their snippet, and nothing
else is: they start at the keyword, stand in order and apart, and every other
header starts inside one of them.  The keyword is followed by a parenthesis,
so the update clause can be judged, and a scan in the manner of C always gives
a report, with one finding for each header.
-/
theorem scan_reports_laid_out_headers (parse : Parser) (code : String) :
    (∀ keyword ∈ ["for", "while"], ∃ placed : List (Placed (List Char)),
      headers keyword code.toList = placed.map (·.found) ∧
      (∀ listed, IsLayout (IsHeaderAt keyword.toList code.toList) 0 listed ↔
        listed = placed) ∧
      ∀ header ∈ headers keyword code.toList,
        (Text.dropBlanks (header.drop keyword.toList.length)).head? = some '(' ∧
          ∃ multiplicative, isMultiplicativeUpdate header = .ok multiplicative) ∧
    ∃ report, Profile.c.scan parse code = .ok report ∧
      report.findings.map (·.construct) =
        (headers "for" code.toList).map (fun _ => "For Loop") ++
          (headers "while" code.toList).map fun _ => "While Loop" := by
  constructor
  · intro keyword hkeyword
    have hshape : ∀ keyword ∈ ["for", "while"],
        keyword.toList ≠ [] ∧ IsSolid keyword.toList := by decide
    obtain ⟨hne, hsolid⟩ := hshape keyword hkeyword
    obtain ⟨placed, hfounds, hlayout⟩ :=
      exists_layout_headers hne hsolid code.toList
    refine ⟨placed, hfounds, hlayout, fun header hheader => ?_⟩
    exact ⟨dropBlanks_of_mem_headers hheader,
      exists_isMultiplicativeUpdate hheader⟩
  · obtain ⟨loops, hloops, hscan⟩ := exists_scanHeaders code.toList
    have hconstructs : loops.map (·.finding.construct) =
        (headers "for" code.toList).map fun _ => "For Loop" :=
      map_of_mapM_eq_ok hloops fun header _ o returned =>
        construct_ofHeader returned
    refine ⟨_, hscan, ?_⟩
    rw [← hconstructs]
    simp [Report.ofObservations, whileHeader, Finding.whileLoop,
      Function.comp_def]

def tangledSnippet : String := "for (while (a) for (b) for () while (c"

theorem scan_reports_laid_out_headers_tangledSnippet :
    "for" ∈ ["for", "while"] ∧ "while" ∈ ["for", "while"] ∧
      (∃ placed : List (Placed (List Char)),
        placed.map (·.found) = ["for (while (a)".toList, "for (b)".toList] ∧
          IsLayout (IsHeaderAt "for".toList tangledSnippet.toList) 0 placed) ∧
      ∃ placed :
      List (Placed (List Char)), placed.map (·.found) = ["while (a)".toList] ∧
        IsLayout (IsHeaderAt "while".toList tangledSnippet.toList) 0 placed := by
  have hfor : headers "for" tangledSnippet.toList =
      ["for (while (a)".toList, "for (b)".toList] := by decide
  have hwhile : headers "while" tangledSnippet.toList = ["while (a)".toList] := by
    decide
  obtain ⟨hheaders, -⟩ :=
    scan_reports_laid_out_headers (Parser.knowing []) tangledSnippet
  obtain ⟨loops, hloops, hlayout, -⟩ := hheaders "for" (by decide)
  obtain ⟨whiles, hwhiles, hwhileLayout, -⟩ := hheaders "while" (by decide)
  exact ⟨by decide, by
    decide, ⟨loops, by rw [← hloops, hfor], (hlayout loops).2 rfl⟩, whiles, by
      rw [← hwhiles, hwhile], (hwhileLayout whiles).2 rfl⟩

end SnippetGrowth
