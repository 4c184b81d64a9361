import SnippetGrowth.Origins
import SnippetGrowth.Proofs.Detection
import SnippetGrowth.Proofs.Pieces

/-!
# Lists of origins

Origins are read piece by piece between the commas, so a list with a comma in it
reads as the lists in front of the comma and behind it.  What is read has no
comma and no white space at its ends, and is not empty; a list of such words,
however much white space stands around its commas, reads as these words.
-/

namespace SnippetGrowth

open Text Scan

/-! ## Words that are read as they are -/

/-- Whether a word is not empty and has neither a comma nor white space at one
of its ends. -/
structure IsOrigin (word : List Char) : Prop where
  nonempty : word ≠ []
  undivided : ',' ∉ word
  front : ∀ c ∈ word.head?, isBlank c = false
  back : ∀ c ∈ word.getLast?, isBlank c = false

theorem IsOrigin.strip_eq {word : List Char} (h : IsOrigin word) :
    strip word = word := by
  have hback : dropBlanks word.reverse = word.reverse :=
    dropBlanks_eq_self (by simpa only [List.head?_reverse] using h.back)
  rw [strip, dropBlanks_eq_self h.front, hback, List.reverse_reverse]

private theorem isOrigin_strip {piece : List Char} (hcomma : ',' ∉ piece)
    (hne : strip piece ≠ []) :
    IsOrigin (strip piece) where
  nonempty := hne
  undivided hmem := hcomma ((strip_isInfix piece).subset hmem)
  front := isBlank_of_mem_head?_strip piece
  back := isBlank_of_mem_getLast?_strip piece

theorem comma_not_mem_of_isBlank {blanks : List Char}
    (h : ∀ c ∈ blanks, isBlank c = true) :
    ',' ∉ blanks := by
  intro hmem
  exact absurd (h ',' hmem) (by decide)

/-! ## Reading -/

theorem originsFrom_append_comma (front rest : List Char) :
    originsFrom (front ++ ',' :: rest) = originsFrom front ++
      originsFrom rest := by
  simp only [originsFrom, split_append_separator, List.map_append,
    List.filter_append]

theorem isOrigin_of_mem_originsFrom {text word : List Char}
    (h : word ∈ originsFrom text) :
    IsOrigin word := by
  obtain ⟨hmem, hkept⟩ := List.mem_filter.1 h
  obtain ⟨piece, hpiece, rfl⟩ := List.mem_map.1 hmem
  exact isOrigin_strip (mark_not_mem_of_mem_split hpiece) (by simpa using hkept)

private theorem originsFrom_append_of_isBlank {blanks : List Char}
    (h : ∀ c ∈ blanks, isBlank c = true) (text : List Char) :
    originsFrom (blanks ++ text) = originsFrom text := by
  obtain ⟨piece, pieces, hsplit⟩ :=
    List.exists_cons_of_ne_nil (split_ne_nil ',' text)
  have hstrip : strip (blanks ++ piece) = strip piece := by
    simpa using strip_surrounded h (List.forall_mem_nil _) piece
  have hblanks :=
    Spelling.split_append_of_not_mem (comma_not_mem_of_isBlank h) hsplit
  simp only [originsFrom, hblanks, hsplit, List.map_cons, hstrip]

private theorem originsFrom_of_isOrigin {word blanks : List Char}
    (hword : IsOrigin word) (h : ∀ c ∈ blanks, isBlank c = true) :
    originsFrom (word ++ blanks) = [word] := by
  have hcomma : ',' ∉ word ++ blanks := by
    simp [hword.undivided, comma_not_mem_of_isBlank h]
  have hstrip : strip (word ++ blanks) = word := by
    simpa [hword.strip_eq] using strip_surrounded (List.forall_mem_nil _) h word
  simp [originsFrom, split_of_not_mem hcomma, hstrip, hword.nonempty]

/-! ## Joined lists -/

/-- Whether a text is a list of words with a comma between any two neighbours,
and perhaps white space around the commas. -/
inductive Joins : List String → String → Prop
  | nothing : Joins [] ""
  | single (word : String) : Joins [word] word
  | comma {word next : String} {words : List String} {before behind text : String}
      (hbefore : ∀ c ∈ before.toList, isBlank c = true)
      (hbehind : ∀ c ∈ behind.toList, isBlank c = true)
        (rest : Joins (next :: words) text) :
      Joins (word :: next :: words) (word ++ before ++ "," ++ behind ++ text)

private theorem Joins.originsFrom_eq {words : List String} {text : String}
    (h : Joins words text) (hwords : ∀ word ∈ words, IsOrigin word.toList) :
    originsFrom text.toList = words.map String.toList := by
  induction h with
  | nothing => rfl
  | single word =>
      have hword := hwords word List.mem_cons_self
      simpa using originsFrom_of_isOrigin hword (List.forall_mem_nil _)
  | @comma word next words before behind text hbefore hbehind _ ih =>
      have htext : (word ++ before ++ "," ++ behind ++ text).toList =
          (word.toList ++ before.toList) ++
              ',' :: (behind.toList ++ text.toList) := by
        simp [String.toList_append]
      rw [List.forall_mem_cons] at hwords
      rw [htext, originsFrom_append_comma,
        originsFrom_of_isOrigin hwords.1 hbefore,
        originsFrom_append_of_isBlank hbehind, ih hwords.2]
      rfl

private theorem isOrigin_of_mem_origins {text word : String}
    (h : word ∈ origins text) :
    IsOrigin word.toList := by
  obtain ⟨chars, hchars, rfl⟩ := List.mem_map.1 h
  rw [String.toList_ofList]
  exact isOrigin_of_mem_originsFrom hchars

/-- The origins of two lists with a comma between them are those of the one and
then those of the other. Every origin is a word that is read as it is, and a
text that joins the origins of a list by commas, with any white space around
them, has the same origins. -/
theorem origins_of_joined (front rest : String) :
    origins (front ++ "," ++ rest) = origins front ++ origins rest ∧
      (∀ origin ∈ origins front, IsOrigin origin.toList) ∧
      ∀ joined, Joins (origins front) joined →
        origins joined = origins front := by
  refine ⟨?_, fun _ => isOrigin_of_mem_origins, fun joined hjoined => ?_⟩
  · have htext : (front ++ "," ++ rest).toList =
        front.toList ++ ',' :: rest.toList := by
      simp [String.toList_append]
    rw [origins, htext, originsFrom_append_comma, List.map_append]
    rfl
  · rw [origins, hjoined.originsFrom_eq fun _ => isOrigin_of_mem_origins]
    simp

theorem origins_of_joined_spacedList :
    origins "http://a ,, \u00a0local host\t" = ["http://a", "local host"] ∧
      Joins ["http://a", "local host"] "http://a\u2003,\n local host" ∧
      origins "http://a\u2003,\n local host" = ["http://a", "local host"] := by
  have hread : origins "http://a ,, \u00a0local host\t" =
      ["http://a", "local host"] := by
    decide +kernel
  have hbefore : "\u2003".toList.all isBlank = true := by decide
  have hbehind : "\n ".toList.all isBlank = true := by decide
  have hjoined :
      Joins ["http://a", "local host"] "http://a\u2003,\n local host" :=
    .comma (List.all_eq_true.1 hbefore) (List.all_eq_true.1 hbehind)
      (.single "local host")
  obtain ⟨-, -, hagain⟩ := origins_of_joined "http://a ,, \u00a0local host\t" ""
  rw [hread] at hagain
  exact ⟨hread, hjoined, hagain _ hjoined⟩

end SnippetGrowth
