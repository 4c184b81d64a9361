/-!
Searching and cutting text as a list of characters.

`occursIn` is the test of every marker in this library: it asks whether one
text stands anywhere inside another.  `split` cuts at a separator and always
leaves at least one piece; `after?` removes an expected beginning.
-/

namespace SnippetGrowth.Text

def occursIn (needle : List Char) : List Char → Bool
  | [] => needle.isEmpty
  | c :: rest => needle.isPrefixOf (c :: rest) || occursIn needle rest

theorem occursIn_iff {needle text : List Char} :
    occursIn needle text = true ↔ needle <:+: text := by
  induction text with
  | nil => simp [occursIn]
  | cons c rest ih =>
      simp only [occursIn, Bool.or_eq_true, List.isPrefixOf_iff_prefix, ih]
      exact List.infix_cons_iff.symm

theorem occursIn_eq_false_of_mem {needle text : List Char} {c : Char}
    (hneedle : c ∈ needle) (htext : c ∉ text) : occursIn needle text = false := by
  rw [Bool.eq_false_iff]
  intro h
  exact htext ((occursIn_iff.1 h).subset hneedle)

theorem occursIn_singleton_iff {c : Char} {text : List Char} :
    occursIn [c] text = true ↔ c ∈ text := by
  induction text with
  | nil => simp [occursIn]
  | cons d text ih => simp [occursIn, ih]

theorem occursIn_append_of_not_mem {mark : Char} {marker front : List Char}
    (h : mark ∉ front) (text : List Char) :
    occursIn (mark :: marker) (front ++ text) =
      occursIn (mark :: marker) text := by
  induction front with
  | nil => rfl
  | cons c front ih =>
      rw [List.mem_cons, not_or] at h
      simp [occursIn, ih h.2, h.1]

theorem occursIn_concat {marker : List Char} (hmarker : marker ≠ []) {c : Char}
    (h : c ∉ marker) (text : List Char) :
    occursIn marker (text ++ [c]) = occursIn marker text := by
  rw [Bool.eq_iff_iff, occursIn_iff, occursIn_iff, List.infix_concat_iff,
    List.suffix_concat_iff]
  constructor
  · rintro ((rfl | ⟨front, rfl, -⟩) | hinside)
    · contradiction
    · simp at h
    · exact hinside
  · exact .inr

def after? : List Char → List Char → Option (List Char)
  | [], text => some text
  | _ :: _, [] => none
  | m :: marker, c :: rest => if m = c then after? marker rest else none

theorem after?_eq_some_iff {marker text rest : List Char} :
    after? marker text = some rest ↔ text = marker ++ rest := by
  induction marker generalizing text with
  | nil => simp [after?]
  | cons m marker ih =>
      cases text with
      | nil => simp [after?]
      | cons c text =>
          by_cases h : m = c
          · simp [after?, h, ih]
          · simp [after?, h, Ne.symm h]

theorem isPrefixOf_eq (marker text : List Char) :
    marker.isPrefixOf text = (after? marker text).isSome := by
  rw [Bool.eq_iff_iff, List.isPrefixOf_iff_prefix, Option.isSome_iff_exists]
  simp only [after?_eq_some_iff]
  constructor
  · rintro ⟨rest, rfl⟩
    exact ⟨rest, rfl⟩
  · rintro ⟨rest, rfl⟩
    exact ⟨rest, rfl⟩

theorem after?_concat {marker : List Char} {c : Char} (h : c ∉ marker)
    (text : List Char) :
    after? marker (text ++ [c]) = (after? marker text).map (· ++ [c]) := by
  induction marker generalizing text with
  | nil => rfl
  | cons m marker ih =>
      rw [List.mem_cons, not_or] at h
      cases text with
      | nil => simp [after?, Ne.symm h.1]
      | cons d text => by_cases hd : m = d <;> simp [after?, hd, ih h.2]

def split (separator : Char) : List Char → List (List Char)
  | [] => [[]]
  | c :: rest =>
      if c = separator then [] :: split separator rest
      else
        match split separator rest with
        | [] => [[c]]
        | piece :: pieces => (c :: piece) :: pieces

theorem split_ne_nil (separator : Char) (text : List Char) :
    split separator text ≠ [] := by
  cases text with
  | nil => simp [split]
  | cons c rest =>
      simp only [split]
      split
      · simp
      · split <;> simp

theorem length_split (separator : Char) (text : List Char) :
    (split separator text).length = text.count separator + 1 := by
  induction text with
  | nil => rfl
  | cons c rest ih =>
      simp only [split, List.count_cons]
      by_cases h : c = separator
      · simp [h, ih]
      · simp only [h, if_false]
        split
        · next hnil => exact absurd hnil (split_ne_nil separator rest)
        · next piece pieces hcons => simp_all

theorem split_append_separator (separator : Char) (front rest : List Char) :
    split separator (front ++ separator :: rest) = split separator front ++
      split separator rest := by
  induction front with
  | nil => simp [split]
  | cons c front ih =>
      obtain ⟨piece, pieces, hsplit⟩ :=
        List.exists_cons_of_ne_nil (split_ne_nil separator front)
      rw [List.cons_append]
      by_cases h : c = separator <;> simp [split, ih, hsplit, h]

def lines : List Char → List (List Char) := split '\n'

/-- The leading run of characters in a class, if there is one, and what follows it. -/
def run? (inClass : Char → Bool) (text : List Char) :
    Option (List Char × List Char) :=
  match text.span inClass with
  | ([], _) => none
  | (run, rest) => some (run, rest)

end SnippetGrowth.Text
