/-!
White space.  The class holds the controls from tab to carriage return, the
four information separators, the next-line control and the space separators,
with the line and paragraph separators; zero-width characters are not in it.
-/

namespace SnippetGrowth.Text

def isBlank (c : Char) : Bool :=
  let n := c.toNat
  (9 ≤ n && n ≤ 13) || (28 ≤ n && n ≤ 32) || n == 0x85 || n == 0xA0 ||
    n == 0x1680 ||
    (0x2000 ≤ n && n ≤ 0x200A) || n == 0x2028 || n == 0x2029 || n == 0x202F ||
    n == 0x205F || n == 0x3000

def dropBlanks (text : List Char) : List Char := text.dropWhile isBlank

def dropBlanks? : List Char → Option (List Char)
  | c :: rest => if isBlank c then some (dropBlanks rest) else none
  | [] => none

def strip (text : List Char) : List Char :=
  (dropBlanks (dropBlanks text).reverse).reverse

theorem dropBlanks_eq_nil_iff {text : List Char} :
    dropBlanks text = [] ↔ ∀ c ∈ text, isBlank c = true := by
  induction text with
  | nil => simp [dropBlanks]
  | cons c rest ih =>
      unfold dropBlanks at ih ⊢
      by_cases h : isBlank c = true <;> simp [h, ih]

theorem strip_eq_nil_iff {text : List Char} :
    strip text = [] ↔ ∀ c ∈ text, isBlank c = true := by
  rw [← dropBlanks_eq_nil_iff, strip, List.reverse_eq_nil_iff,
    dropBlanks_eq_nil_iff]
  constructor
  · intro h
    cases hd : dropBlanks text with
    | nil => rfl
    | cons c rest =>
        have hc : isBlank c = true := h c (by simp [hd])
        have := List.head?_dropWhile_not isBlank text
        rw [dropBlanks] at hd
        simp [hd, hc] at this
  · intro h
    simp [h]

end SnippetGrowth.Text
