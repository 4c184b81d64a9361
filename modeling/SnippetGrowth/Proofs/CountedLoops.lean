import Mathlib.Data.List.Lex
import Mathlib.Data.Set.Finite.Lemmas
import Mathlib.Data.Set.Finite.List
import SnippetGrowth.Proofs.Limits
import SnippetGrowth.Proofs.Pieces
import SnippetGrowth.Proofs.SelfCalls

/-!
# Counted loops

A counted loop can be read in a text in many ways, since it is left open how far
its parts go.  The reading that is taken has, from the first part on, the
longest parts.  It stops where no other reading stops later, behind the last
`do` in front of the next semicolon, so nothing is left in its piece of the
snippet for another loop.
-/

namespace SnippetGrowth

open Text

namespace Scan

/-! ## Words in any case -/

def IsWritten (word text : List Char) : Prop :=
  List.Forall₂ (fun m c => sameLetter m c = true) word text

theorem IsWritten.length_eq {word text : List Char} (h : IsWritten word text) :
    text.length = word.length :=
  (List.Forall₂.length_eq h).symm

theorem IsWritten.not_mem {word text : List Char} (h : IsWritten word text)
    {mark : Char} (hmark : word.any (sameLetter · mark) = false) :
    mark ∉ text := by
  induction h with
  | nil => exact List.not_mem_nil
  | cons hsame _ ih =>
      rw [List.any_cons, Bool.or_eq_false_iff] at hmark
      rw [List.mem_cons, not_or]
      refine ⟨?_, ih hmark.2⟩
      rintro rfl
      rw [hsame] at hmark
      exact absurd hmark.1 (by decide)

theorem afterAnyCase?_eq_some_iff {word text rest : List Char} :
    afterAnyCase? word text = some rest ↔
      ∃ written, IsWritten word written ∧ text = written ++ rest := by
  induction word generalizing text with
  | nil =>
      constructor
      · intro h
        exact ⟨[], .nil, Option.some.inj h⟩
      · rintro ⟨written, hwritten, rfl⟩
        cases hwritten
        rfl
  | cons m word ih =>
      cases text with
      | nil =>
          refine iff_of_false (by simp [afterAnyCase?]) ?_
          rintro ⟨written, hwritten, htext⟩
          cases hwritten
          simp at htext
      | cons c text =>
          rw [afterAnyCase?]
          constructor
          · intro h
            split at h
            · next hsame =>
                obtain ⟨written, hwritten, rfl⟩ := ih.1 h
                exact ⟨c :: written, .cons hsame hwritten, rfl⟩
            · contradiction
          · rintro ⟨written, hwritten, htext⟩
            cases hwritten with
            | cons hsame hwritten =>
                obtain ⟨rfl, rfl⟩ := List.cons.inj htext
                rw [if_pos hsame]
                exact ih.2 ⟨_, hwritten, rfl⟩

/-! ## Readers that take the most -/

/-- Whether a reader takes as much of a text as can be, given what may be left of it. -/
inductive TakesMost (leaves : List Char → Prop) : Option (List Char) → Prop
  | nothing (h : ∀ rest, ¬ leaves rest) : TakesMost leaves none
  | most {rest : List Char} (h : leaves rest)
      (shortest : ∀ other, leaves other → rest.length ≤ other.length) :
      TakesMost leaves (some rest)

theorem TakesMost.congr {leaves other : List Char → Prop}
    {left : Option (List Char)} (h : TakesMost leaves left)
    (heq : ∀ rest, leaves rest ↔ other rest) :
    TakesMost other left := by
  have hsame : leaves = other := funext fun rest => propext (heq rest)
  exact hsame ▸ h

/-- What is left of a text behind some place where a word stands in some case. -/
def LeftBehind (word text rest : List Char) : Prop :=
  ∃ before written, IsWritten word written ∧ text = before ++ (written ++ rest)

private theorem leftBehind_cons_iff {word text rest : List Char} {c : Char} :
    LeftBehind word (c :: text) rest ↔
      LeftBehind word text rest ∨ afterAnyCase? word (c :: text) = some rest := by
  rw [afterAnyCase?_eq_some_iff]
  constructor
  · rintro ⟨before, written, hwritten, htext⟩
    cases before with
    | nil => exact .inr ⟨written, hwritten, htext⟩
    | cons b before =>
        obtain ⟨rfl, rfl⟩ := List.cons.inj htext
        exact .inl ⟨before, written, hwritten, rfl⟩
  · rintro (⟨before, written, hwritten, rfl⟩ | ⟨written, hwritten, htext⟩)
    · exact ⟨c :: before, written, hwritten, rfl⟩
    · exact ⟨[], written, hwritten, htext⟩

theorem LeftBehind.length_le {word text rest : List Char}
    (h : LeftBehind word text rest) :
    word.length + rest.length ≤ text.length := by
  obtain ⟨before, written, hwritten, rfl⟩ := h
  have hlength := hwritten.length_eq
  simp only [List.length_append]
  omega

theorem takesMost_afterLast? {word : List Char} (hword : word ≠ [])
    (text : List Char) :
    TakesMost (LeftBehind word text) (afterLast? word text) := by
  induction text with
  | nil =>
      refine .nothing fun rest hleft => ?_
      have hlength := hleft.length_le
      have hpos := List.length_pos_of_ne_nil hword
      simp only [List.length_nil] at hlength
      omega
  | cons c text ih =>
      rw [afterLast?]
      cases hlast : afterLast? word text with
      | some found =>
          rw [hlast] at ih
          cases ih with
          | most hfound shortest =>
              refine .most (leftBehind_cons_iff.2 (.inl hfound))
                fun other hother => ?_
              rcases leftBehind_cons_iff.1 hother with hlater | hhere
              · exact shortest other hlater
              · obtain ⟨written, hwritten, htext⟩ :=
                  afterAnyCase?_eq_some_iff.1 hhere
                have hlength := congrArg List.length htext
                have hle := hfound.length_le
                have hwrittenLength := hwritten.length_eq
                simp only [List.length_append, List.length_cons] at hlength
                omega
      | none =>
          rw [hlast] at ih
          cases ih with
          | nothing hnone =>
              dsimp only
              cases hhere : afterAnyCase? word (c :: text) with
              | none =>
                  refine .nothing fun rest hleft => ?_
                  rcases leftBehind_cons_iff.1 hleft with hlater | hfront
                  · exact hnone rest hlater
                  · rw [hhere] at hfront
                    contradiction
              | some found =>
                  refine .most (leftBehind_cons_iff.2 (.inr hhere))
                    fun other hother => ?_
                  rcases leftBehind_cons_iff.1 hother with hlater | hfront
                  · exact absurd hlater (hnone other)
                  · rw [hhere] at hfront
                    rw [Option.some.inj hfront]

/-! ## Bounds -/

/-- A reading of the bounds of a loop: blanks, where it starts, `to`, where it
ends, and `do`. -/
structure LoopBounds where
  margin : List Char
  start : List Char
  toward : List Char
  limit : List Char
  action : List Char
  isBlank_of_mem_margin : ∀ c ∈ margin, isBlank c = true
  start_ne_nil : start ≠ []
  start_undivided : ';' ∉ start
  isTo : IsWritten "to".toList toward
  limit_ne_nil : limit ≠ []
  limit_undivided : ';' ∉ limit
  isDo : IsWritten "do".toList action

namespace LoopBounds

def front (b : LoopBounds) : List Char :=
  b.margin ++ (b.start ++ (b.toward ++ b.limit))

def text (b : LoopBounds) : List Char := b.front ++ b.action

theorem four_le_length_front (b : LoopBounds) : 4 ≤ b.front.length := by
  have hstart := List.length_pos_of_ne_nil b.start_ne_nil
  have hlimit := List.length_pos_of_ne_nil b.limit_ne_nil
  have htoward : b.toward.length = 2 := b.isTo.length_eq
  simp only [front, List.length_append]
  omega

private theorem front_undivided (b : LoopBounds) : ';' ∉ b.front := by
  have hmargin : ';' ∉ b.margin :=
    fun h => absurd (b.isBlank_of_mem_margin _ h) (by decide)
  have htoward : ';' ∉ b.toward := b.isTo.not_mem rfl
  simp [front, hmargin, htoward, b.start_undivided, b.limit_undivided]

theorem text_undivided (b : LoopBounds) : ';' ∉ b.text := by
  have haction : ';' ∉ b.action := b.isDo.not_mem rfl
  simp [text, b.front_undivided, haction]

def Leaves (text rest : List Char) : Prop :=
  ∃ b : LoopBounds, text = b.text ++ rest

private theorem leaves_cons_iff {c : Char} {text rest : List Char}
    (h : ';' ∉ c :: text) :
    Leaves (c :: text) rest ↔
      (∃ after, afterAnyCase? "to".toList text = some after ∧
        LeftBehind "do".toList (after.drop 1) rest) ∨ Leaves text rest := by
  constructor
  · rintro ⟨⟨margin, start, toward, limit, action, hmargin, hstart, hundivided,
      hto, hlimit, hlimitUndivided, hdo⟩, htext⟩
    simp only [LoopBounds.text, front, List.append_assoc] at htext
    cases margin with
    | cons m margin =>
        obtain ⟨-, rfl⟩ := List.cons.inj htext
        refine .inr ⟨⟨margin, start, toward, limit, action,
          fun d hd => hmargin d (List.mem_cons_of_mem m hd), hstart, hundivided,
          hto, hlimit,
          hlimitUndivided, hdo⟩, ?_⟩
        simp [LoopBounds.text, front]
    | nil =>
        obtain ⟨s, start, rfl⟩ := List.exists_cons_of_ne_nil hstart
        obtain ⟨-, rfl⟩ := List.cons.inj htext
        cases start with
        | cons d start =>
            refine .inr ⟨⟨[], d :: start, toward, limit, action, by simp, by simp,
              fun hd => hundivided (List.mem_cons_of_mem s hd), hto, hlimit,
              hlimitUndivided,
              hdo⟩, ?_⟩
            simp [LoopBounds.text, front]
        | nil =>
            obtain ⟨l, limit, rfl⟩ := List.exists_cons_of_ne_nil hlimit
            refine .inl ⟨(l :: limit) ++ (action ++ rest),
              afterAnyCase?_eq_some_iff.2 ⟨toward, hto, rfl⟩, limit, action,
              hdo, rfl⟩
  · rintro (⟨after, hafter, before, action, hdo, hlimit⟩ | ⟨b, rfl⟩)
    · obtain ⟨toward, hto, rfl⟩ := afterAnyCase?_eq_some_iff.1 hafter
      cases after with
      | nil =>
          have hlength := congrArg List.length hlimit
          have haction := hdo.length_eq
          simp at hlength haction
          omega
      | cons l after =>
          obtain rfl : after = before ++ (action ++ rest) := hlimit
          simp only [List.mem_cons, List.mem_append, not_or] at h
          refine ⟨⟨[], [c], toward, l :: before, action, by simp, by simp, by
            simp [h.1], hto, by simp, by simp [h.2.2.1, h.2.2.2.1], hdo⟩, ?_⟩
          simp [LoopBounds.text, front]
    · refine ⟨⟨[], c :: (b.margin ++ b.start), b.toward, b.limit, b.action,
        by simp, by
          simp, ?_, b.isTo, b.limit_ne_nil, b.limit_undivided, b.isDo⟩, ?_⟩
      · intro hmem
        apply h
        simp only [LoopBounds.text, front, List.mem_cons,
          List.mem_append] at hmem ⊢
        tauto
      · simp [LoopBounds.text, front]

private theorem Leaves.leftBehind {text rest after : List Char}
    (h : Leaves text rest)
    (hafter : afterAnyCase? "to".toList text = some after) :
    LeftBehind "do".toList (after.drop 1) rest := by
  obtain ⟨b, rfl⟩ := h
  obtain ⟨toward, hto, htext⟩ := afterAnyCase?_eq_some_iff.1 hafter
  have hfour := b.four_le_length_front
  have hdrop : after.drop 1 = (toward ++ after).drop 3 := by
    have htoward : toward.length = 2 := hto.length_eq
    have hnil : toward.drop 3 = [] := List.drop_of_length_le (by omega)
    rw [List.drop_append, hnil, htoward, List.nil_append]
  refine ⟨b.front.drop 3, b.action, b.isDo, ?_⟩
  rw [hdrop, ← htext, LoopBounds.text, List.append_assoc,
    List.drop_append_of_le_length (by omega)]

theorem takesMost_afterBounds? {text : List Char} (h : ';' ∉ text) :
    TakesMost (Leaves text) (afterBounds? text) := by
  induction text with
  | nil =>
      refine .nothing ?_
      rintro rest ⟨b, htext⟩
      have hfour := b.four_le_length_front
      have hlength := congrArg List.length htext
      simp only [LoopBounds.text, List.length_append, List.length_nil] at hlength
      omega
  | cons c text ih =>
      have htext : ';' ∉ text := fun hmem => h (List.mem_cons_of_mem c hmem)
      rw [afterBounds?]
      cases hafter : afterAnyCase? "to".toList text with
      | none =>
          refine (ih htext).congr fun rest => ?_
          rw [leaves_cons_iff h, hafter]
          simp
      | some after =>
          refine (takesMost_afterLast? (by decide) (after.drop 1)).congr
            fun rest => ?_
          rw [leaves_cons_iff h, hafter]
          constructor
          · intro hleft
            exact .inl ⟨after, rfl, hleft⟩
          · rintro (⟨other, hother, hleft⟩ | hlater)
            · rwa [Option.some.inj hother]
            · exact hlater.leftBehind hafter

end LoopBounds

/-! ## Openings -/

structure LoopOpening where
  keyword : List Char
  blanks : List Char
  counter : List Char
  gap : List Char
  isFor : IsWritten "for".toList keyword
  blanks_ne_nil : blanks ≠ []
  isBlank_of_mem_blanks : ∀ c ∈ blanks, isBlank c = true
  isName : IsName counter
  isBlank_of_mem_gap : ∀ c ∈ gap, isBlank c = true

def LoopOpening.text (o : LoopOpening) : List Char :=
  o.keyword ++ (o.blanks ++ (o.counter ++ (o.gap ++ [':', '='])))

theorem LoopOpening.text_undivided (o : LoopOpening) : ';' ∉ o.text := by
  have hkeyword : ';' ∉ o.keyword := o.isFor.not_mem rfl
  have hblanks : ';' ∉ o.blanks :=
    fun h => absurd (o.isBlank_of_mem_blanks _ h) (by decide)
  have hcounter : ';' ∉ o.counter :=
    fun h => absurd (o.isName.isWord_of_mem _ h) (by decide)
  have hgap : ';' ∉ o.gap :=
    fun h => absurd (o.isBlank_of_mem_gap _ h) (by decide)
  simp [text, hkeyword, hblanks, hcounter, hgap]

def afterOpening? (text : List Char) : Option (List Char) :=
  (((afterAnyCase? "for".toList text).bind dropBlanks?).bind word?).bind
      fun (_, rest) =>
    after? [':', '='] (dropBlanks rest)

theorem afterOpening?_eq_some_iff {text behind : List Char} :
    afterOpening? text = some behind ↔ ∃ o :
    LoopOpening, text = o.text ++ behind := by
  constructor
  · intro h
    obtain ⟨⟨counter, rest⟩, hcounter, hassigned⟩ := Option.bind_eq_some_iff.1 h
    have hname := isName_of_bind_word? hcounter
    obtain ⟨opened, hopened, hword⟩ := Option.bind_eq_some_iff.1 hcounter
    obtain ⟨start, hstart, hskip⟩ := Option.bind_eq_some_iff.1 hopened
    obtain ⟨keyword, hkeyword, rfl⟩ := afterAnyCase?_eq_some_iff.1 hstart
    obtain ⟨blanks, hne, hblanks, rfl⟩ := dropBlanks?_eq_some hskip
    obtain ⟨-, -, rfl⟩ := of_run?_eq_some hword
    have hgap : rest = rest.takeWhile isBlank ++ ([':', '='] ++ behind) := by
      rw [← after?_eq_some_iff.1 hassigned]
      exact List.takeWhile_append_dropWhile.symm
    refine ⟨⟨keyword, blanks, counter, rest.takeWhile isBlank, hkeyword, hne,
      hblanks, hname, fun c => List.mem_takeWhile_imp⟩, ?_⟩
    simp only [LoopOpening.text, List.append_assoc]
    rw [← hgap]
  · rintro ⟨o, rfl⟩
    have hend : ∀ d ∈ (o.gap ++ ':' :: '=' :: behind).head?, isWord d = false :=
      head?_blanks_append o.isBlank_of_mem_gap (by decide) _
    have hkeyword : afterAnyCase? "for".toList (o.text ++ behind) =
        some (o.blanks ++ (o.counter ++ (o.gap ++ ':' :: '=' :: behind))) :=
      afterAnyCase?_eq_some_iff.2 ⟨o.keyword, o.isFor, by simp [LoopOpening.text]⟩
    have hblanks :
        dropBlanks?
          (o.blanks ++ (o.counter ++ (o.gap ++ ':' :: '=' :: behind))) =
        some (o.counter ++ (o.gap ++ ':' :: '=' :: behind)) :=
      dropBlanks?_append o.isBlank_of_mem_blanks (o.isName.head?_append _)
        o.blanks_ne_nil
    have hword : word? (o.counter ++ (o.gap ++ ':' :: '=' :: behind)) =
        some (o.counter, o.gap ++ ':' :: '=' :: behind) :=
      run?_eq_of_inside o.isName.ne_nil o.isName.isWord_of_mem hend
    rw [afterOpening?, hkeyword, Option.bind_some, hblanks, Option.bind_some,
      hword, Option.bind_some]
    dsimp only
    rw [dropBlanks_append o.isBlank_of_mem_gap (by rintro _ ⟨⟩; decide)]
    rfl

theorem countedLoop?_eq (previous : Option Char) (text : List Char) :
    countedLoop? previous text = (afterOpening? text).bind fun behind =>
      (afterBounds? (behind.takeWhile (· != ';'))).map fun tail =>
        ((), tail ++ behind.dropWhile (· != ';')) := by
  rw [afterOpening?, Option.bind_assoc]
  unfold countedLoop?
  simp only [List.span_eq_takeWhile_dropWhile, Option.map_eq_bind]
  rfl

/-! ## Loops -/

/-- A reading of a loop up to `do`. -/
structure LoopReading where
  opening : LoopOpening
  bounds : LoopBounds

namespace LoopReading

def text (r : LoopReading) : List Char := r.opening.text ++ r.bounds.text

theorem text_ne_nil (r : LoopReading) :
    r.text ≠ [] := by simp [text, LoopOpening.text]

theorem text_undivided (r : LoopReading) : ';' ∉ r.text := by
  simp [text, r.opening.text_undivided, r.bounds.text_undivided]

theorem afterOpening?_append (r : LoopReading) (rest : List Char) :
    afterOpening? (r.text ++ rest) = some (r.bounds.text ++ rest) :=
  afterOpening?_eq_some_iff.2 ⟨r.opening, List.append_assoc _ _ _⟩

def Leaves (text rest : List Char) : Prop :=
  ∃ r : LoopReading, text = r.text ++ rest

private theorem leaves_iff {text behind rest : List Char}
    (h : afterOpening? text = some behind) :
    Leaves text rest ↔
      ∃ tail, LoopBounds.Leaves (behind.takeWhile (· != ';')) tail ∧
      rest = tail ++ behind.dropWhile (· != ';') := by
  constructor
  · rintro ⟨r, rfl⟩
    obtain rfl := Option.some.inj ((r.afterOpening?_append rest).symm.trans h)
    have hpassed : ∀ c ∈ r.bounds.text, (c != ';') = true := fun c hc => by
      simpa using ne_of_mem_of_not_mem hc r.bounds.text_undivided
    rw [List.takeWhile_append_of_pos hpassed,
      List.dropWhile_append_of_pos hpassed]
    exact ⟨_, ⟨r.bounds, rfl⟩, List.takeWhile_append_dropWhile.symm⟩
  · rintro ⟨tail, ⟨b, hbounds⟩, rfl⟩
    obtain ⟨o, rfl⟩ := afterOpening?_eq_some_iff.1 h
    refine ⟨⟨o, b⟩, ?_⟩
    rw [text, List.append_assoc, ← List.append_assoc b.text, ← hbounds,
      List.takeWhile_append_dropWhile]

theorem takesMost_countedLoop? (previous : Option Char) (text : List Char) :
    TakesMost (Leaves text) ((countedLoop? previous text).map (·.2)) := by
  rw [countedLoop?_eq]
  cases hopening : afterOpening? text with
  | none =>
      refine .nothing ?_
      rintro rest ⟨r, rfl⟩
      rw [r.afterOpening?_append] at hopening
      contradiction
  | some behind =>
      have hundivided : ';' ∉ behind.takeWhile (· != ';') := fun hmem =>
        absurd (List.mem_takeWhile_imp hmem) (by decide)
      have hmost := LoopBounds.takesMost_afterBounds? hundivided
      rw [Option.bind_some]
      cases hbounds : afterBounds? (behind.takeWhile (· != ';')) with
      | none =>
          rw [hbounds] at hmost
          cases hmost with
          | nothing hnone =>
              refine .nothing fun rest hleaves => ?_
              obtain ⟨tail, htail, -⟩ := (leaves_iff hopening).1 hleaves
              exact hnone tail htail
      | some tail =>
          rw [hbounds] at hmost
          cases hmost with
          | most htail shortest =>
              refine .most ((leaves_iff hopening).2 ⟨tail, htail, rfl⟩)
                fun other hother => ?_
              obtain ⟨otherTail, hotherTail, rfl⟩ :=
                (leaves_iff hopening).1 hother
              have hle := shortest otherTail hotherTail
              simp only [List.length_append]
              omega

theorem countedLoop?_eq_none_iff {previous : Option Char} {text : List Char} :
    countedLoop? previous text = none ↔ ∀ rest, ¬ Leaves text rest := by
  have hmost := takesMost_countedLoop? previous text
  cases hfind : countedLoop? previous text with
  | none =>
      rw [hfind] at hmost
      cases hmost with
      | nothing hnone => exact iff_of_true rfl hnone
  | some find =>
      rw [hfind] at hmost
      cases hmost with
      | most hleaves => exact iff_of_false (by simp) fun h => h _ hleaves

private theorem leaves_isSuffix {text rest : List Char} (h : Leaves text rest) :
    rest <:+ text := by
  obtain ⟨r, rfl⟩ := h
  exact List.suffix_append _ _

theorem countedLoop?_eq_some_iff {previous : Option Char}
    {text rest : List Char} :
    countedLoop? previous text = some ((), rest) ↔
      Leaves text rest ∧ ∀ other, Leaves text other →
        rest.length ≤ other.length := by
  have hmost := takesMost_countedLoop? previous text
  constructor
  · intro hfind
    rw [hfind] at hmost
    cases hmost with
    | most hleaves shortest => exact ⟨hleaves, shortest⟩
  · rintro ⟨hleaves, shortest⟩
    cases hfind : countedLoop? previous text with
    | none => exact absurd hleaves (countedLoop?_eq_none_iff.1 hfind rest)
    | some find =>
        rw [hfind] at hmost
        cases hmost with
        | most hfound hshortest =>
            have hlength :=
              Nat.le_antisymm (hshortest rest hleaves) (shortest _ hfound)
            have hsame : find.2 = rest := (List.suffix_of_suffix_length_le
              (leaves_isSuffix hfound) (leaves_isSuffix hleaves)
                hlength.le).eq_of_length hlength
            rw [← hsame]

/-! ## The reading that is taken -/

def front (r : LoopReading) : List Char := r.opening.text ++ r.bounds.front

theorem text_eq (r : LoopReading) : r.text = r.front ++ r.bounds.action := by
  rw [text, front, LoopBounds.text, List.append_assoc]

def lengths (r : LoopReading) : List Nat :=
  [r.opening.blanks.length, r.opening.counter.length, r.opening.gap.length,
    r.bounds.margin.length, r.bounds.start.length, r.bounds.limit.length]

/-- Whether a reading is the one that a text starts with whose parts are, from
the first one on, as long as can be. -/
structure IsTaken (r : LoopReading) (text : List Char) : Prop where
  isPrefix : r.text <+: text
  longest : ∀ other : LoopReading, other.text <+: text →
    ¬ List.Lex (· < ·) r.lengths other.lengths

theorem exists_longer (r : LoopReading) {more action : List Char}
    (hne : more ≠ []) (hmore : ';' ∉ more) (hdo : IsWritten "do".toList action) :
    ∃ longer : LoopReading, longer.text = r.front ++ (more ++ action) ∧
      List.Lex (· < ·) r.lengths longer.lengths := by
  have hundivided : ';' ∉ r.bounds.limit ++ more := by
    simp [r.bounds.limit_undivided, hmore]
  refine ⟨⟨r.opening, { r.bounds with
    limit := r.bounds.limit ++ more
    action := action
    limit_ne_nil := by simp [r.bounds.limit_ne_nil]
    limit_undivided := hundivided
    isDo := hdo }⟩, by simp [text, front, LoopBounds.text, LoopBounds.front], ?_⟩
  have hlonger : r.bounds.limit.length < (r.bounds.limit ++ more).length := by
    have hpos := List.length_pos_of_ne_nil hne
    simp only [List.length_append]
    omega
  exact .cons (.cons (.cons (.cons (.cons (.rel hlonger)))))

theorem IsTaken.length_le {r : LoopReading} {text rest other : List Char}
    (h : r.IsTaken text) (htext : text = r.text ++ rest)
    (hother : Leaves text other) :
    rest.length ≤ other.length := by
  by_contra hlt
  obtain ⟨o, ho⟩ := hother
  -- The other reading ends in `do`, further behind, so the limit can go on up
  -- to there.
  have hends : r.front ++ (r.bounds.action ++ rest) =
      o.front ++ (o.bounds.action ++ other) := by
    rw [← List.append_assoc, ← List.append_assoc, ← r.text_eq, ← o.text_eq,
      ← htext, ← ho]
  have haction : r.bounds.action.length = 2 := r.bounds.isDo.length_eq
  have hotherAction : o.bounds.action.length = 2 := o.bounds.isDo.length_eq
  have hlengths := congrArg List.length hends
  simp only [List.length_append, haction, hotherAction] at hlengths
  rcases List.append_eq_append_iff.1 hends with
    ⟨more, hfront, hmore⟩ | ⟨inside, hfront, -⟩
  · have hne : more ≠ [] := by
      rintro rfl
      simp only [hfront, List.append_nil] at hlengths
      omega
    have hundivided : ';' ∉ more := fun hmem => o.text_undivided (by
      simp [o.text_eq, hfront, hmem])
    obtain ⟨longer, hlonger, hlex⟩ := r.exists_longer hne hundivided o.bounds.isDo
    have hsame : longer.text = o.text := by
      rw [hlonger, o.text_eq, hfront, List.append_assoc]
    exact h.longest longer ⟨other, by rw [hsame, ho]⟩ hlex
  · simp only [hfront, List.length_append] at hlengths
    omega

def readingLengths (text : List Char) : Set (List Nat) :=
  {lengths | ∃ r : LoopReading, r.text <+: text ∧ r.lengths = lengths}

private theorem finite_readingLengths (text : List Char) :
    (readingLengths text).Finite := by
  -- Six parts are free, and none of them is longer than the text.
  refine ((List.finite_length_eq (Fin (text.length + 1)) 6).image
    (List.map Fin.val)).subset ?_
  rintro - ⟨r, hstarts, rfl⟩
  have hbound : ∀ length ∈ r.lengths, length < text.length + 1 := by
    have hle := hstarts.length_le
    simp only [LoopReading.text, LoopOpening.text, LoopBounds.text,
      LoopBounds.front, List.length_append] at hle
    simp only [lengths, List.mem_cons, List.not_mem_nil, or_false]
    omega
  have hsix : r.lengths.length = 6 := rfl
  generalize r.lengths = lengths at hbound hsix
  lift lengths to List (Fin (text.length + 1)) using hbound
  exact ⟨lengths, by simpa using hsix, rfl⟩

theorem exists_isTaken {r : LoopReading} {text : List Char}
    (h : r.text <+: text) :
    ∃ taken : LoopReading, taken.IsTaken text := by
  obtain ⟨-, ⟨taken, hstarts, rfl⟩, hlongest⟩ :=
    Set.exists_max_image _ id (finite_readingLengths text) ⟨r.lengths, r, h, rfl⟩
  exact ⟨taken, hstarts, fun other hother =>
    not_lt.2 (hlongest other.lengths ⟨other, hother, rfl⟩)⟩

/-- The loop that is found is the reading that is taken. -/
theorem countedLoop?_eq_some_iff_exists_isTaken {previous : Option Char}
    {text rest : List Char} :
    countedLoop? previous text = some ((), rest) ↔
      ∃ r : LoopReading, r.IsTaken text ∧ text = r.text ++ rest := by
  rw [countedLoop?_eq_some_iff]
  constructor
  · rintro ⟨⟨r, hr⟩, shortest⟩
    obtain ⟨taken, htaken⟩ := exists_isTaken ⟨rest, hr.symm⟩
    obtain ⟨left, hleft⟩ := htaken.isPrefix
    have hlength := Nat.le_antisymm (htaken.length_le hleft.symm ⟨r, hr⟩)
      (shortest left ⟨taken, hleft.symm⟩)
    have hsuffix : left <:+ rest := List.suffix_of_suffix_length_le
      ⟨taken.text, hleft⟩ ⟨r.text, hr.symm⟩ hlength.le
    exact ⟨taken, htaken, hsuffix.eq_of_length hlength ▸ hleft.symm⟩
  · rintro ⟨taken, htaken, htext⟩
    exact ⟨⟨taken, htext⟩, fun other => htaken.length_le htext⟩

end LoopReading

/-! ## Loops in pieces -/

open LoopReading

private theorem leaves_append_cons_iff {front : List Char} (h : ';' ∉ front)
    {rest left : List Char} :
    Leaves (front ++ ';' :: rest) left ↔
      ∃ inside, Leaves front inside ∧ left = inside ++ ';' :: rest := by
  constructor
  · rintro ⟨r, hr⟩
    obtain ⟨inside, rfl⟩ :=
      isPrefix_of_append_cons r.text_undivided ⟨left, hr.symm⟩
    rw [List.append_assoc, List.append_cancel_left_eq] at hr
    exact ⟨inside, ⟨r, rfl⟩, hr.symm⟩
  · rintro ⟨inside, ⟨r, rfl⟩, rfl⟩
    exact ⟨r, List.append_assoc _ _ _⟩

/-- A loop is settled by what stands in front of the next semicolon. -/
theorem isConfined_countedLoop? : IsConfined ';' countedLoop? where
  blind := fun _ _ => rfl
  nothing := rfl
  confined := by
    intro front hfront rest
    cases hfind : countedLoop? none front with
    | none =>
        refine countedLoop?_eq_none_iff.2 fun left hleaves => ?_
        obtain ⟨inside, hinside, -⟩ := (leaves_append_cons_iff hfront).1 hleaves
        exact countedLoop?_eq_none_iff.1 hfind inside hinside
    | some find =>
        obtain ⟨hleaves, shortest⟩ := countedLoop?_eq_some_iff.1 hfind
        refine countedLoop?_eq_some_iff.2
          ⟨(leaves_append_cons_iff hfront).2 ⟨find.2, hleaves, rfl⟩,
            fun left hleft => ?_⟩
        obtain ⟨inside, hinside, rfl⟩ := (leaves_append_cons_iff hfront).1 hleft
        have hle := shortest inside hinside
        simp only [List.length_append]
        omega

def HoldsLoop (text : List Char) : Prop := ∃ r : LoopReading, r.text <:+: text

theorem foundAt_countedLoop?_iff {text : List Char} {start stop : Nat} :
    FoundAt countedLoop? text start () stop ↔
      ∃ before behind rest, text = before ++ behind ∧ before.length = start ∧
        Leaves behind rest ∧
        (∀ other, Leaves behind other → rest.length ≤ other.length) ∧
        stop + rest.length = text.length := by
  constructor
  · rintro ⟨before, behind, rest, htext, hstart, -, hfind, hstop⟩
    obtain ⟨hleaves, shortest⟩ := countedLoop?_eq_some_iff.1 hfind
    exact ⟨before, behind, rest, htext, hstart, hleaves, shortest, hstop⟩
  · rintro ⟨before, behind, rest, htext, hstart, hleaves, shortest, hstop⟩
    have hne : behind ≠ [] := by
      obtain ⟨r, rfl⟩ := hleaves
      simp [r.text_ne_nil]
    exact ⟨before, behind, rest, htext, hstart, hne,
      countedLoop?_eq_some_iff.2 ⟨hleaves, shortest⟩, hstop⟩

private theorem holdsLoop_iff_exists_foundAt {text : List Char} :
    HoldsLoop text ↔ ∃ start stop, FoundAt countedLoop? text start () stop := by
  constructor
  · rintro ⟨r, before, rest, rfl⟩
    have hstarts : r.text <+: r.text ++ rest := List.prefix_append _ _
    obtain ⟨taken, htaken⟩ := exists_isTaken hstarts
    obtain ⟨left, hleft⟩ := htaken.isPrefix
    refine ⟨before.length, (before ++ taken.text).length,
      foundAt_countedLoop?_iff.2
      ⟨before, r.text ++ rest, left, List.append_assoc _ _ _, rfl,
        ⟨taken, hleft.symm⟩, fun other => htaken.length_le hleft.symm, ?_⟩⟩
    rw [← List.length_append, List.append_assoc, hleft, List.append_assoc]
  · rintro ⟨start, stop, h⟩
    obtain ⟨before, behind, rest, rfl, -, ⟨r, rfl⟩, -⟩ :=
      foundAt_countedLoop?_iff.1 h
    exact ⟨r, before, rest, List.append_assoc _ _ _⟩

private theorem lt_stop_of_foundAt {text : List Char} (h : ';' ∉ text)
    {start stop other otherStop : Nat}
    (hfirst : FoundAt countedLoop? text start () stop)
    (hother : FoundAt countedLoop? text other () otherStop) : other < stop := by
  by_contra hbehind
  obtain ⟨before, -, rest, rfl, rfl, ⟨r, rfl⟩, shortest, hstop⟩ :=
    foundAt_countedLoop?_iff.1 hfirst
  obtain ⟨otherBefore, -, left, htext, rfl, ⟨o, rfl⟩, -, -⟩ :=
    foundAt_countedLoop?_iff.1 hother
  have hle : (before ++ r.text).length ≤ otherBefore.length := by
    simp only [List.length_append] at hstop ⊢
    omega
  obtain ⟨between, rfl⟩ := List.prefix_of_prefix_length_le
    ⟨rest, List.append_assoc _ _ _⟩ ⟨_, htext.symm⟩ hle
  obtain rfl : rest = between ++ (o.text ++ left) := by simpa using htext
  have hundivided : ';' ∉ r.bounds.action ++ (between ++ o.front) := by
    have hours := r.text_undivided
    have htheirs := o.text_undivided
    rw [text_eq] at hours htheirs
    simp only [List.mem_append, not_or] at h hours htheirs ⊢
    exact ⟨hours.2, h.2.2.1, htheirs.1⟩
  have hne : r.bounds.action ++ (between ++ o.front) ≠ [] := fun hnil =>
    absurd r.bounds.isDo (by simp [(List.append_eq_nil_iff.1 hnil).1, IsWritten])
  obtain ⟨longer, hlonger, -⟩ := r.exists_longer hne hundivided o.bounds.isDo
  have hleaves : Leaves (r.text ++ (between ++ (o.text ++ left))) left :=
    ⟨longer, by rw [hlonger, r.text_eq, o.text_eq]; simp only [List.append_assoc]⟩
  have hshorter := shortest left hleaves
  have hpos := List.length_pos_of_ne_nil o.text_ne_nil
  simp only [List.length_append] at hshorter
  omega

theorem holdsLoop_iff {text : List Char} :
    HoldsLoop text ↔ allMatches countedLoop? text ≠ [] := by
  rw [allMatches_ne_nil_iff isAnchored_countedLoop?, holdsLoop_iff_exists_foundAt]
  constructor
  · rintro ⟨start, stop, h⟩
    exact ⟨start, (), stop, h⟩
  · rintro ⟨start, found, stop, h⟩
    exact ⟨start, stop, h⟩

instance : DecidablePred HoldsLoop :=
  fun _ => decidable_of_iff _ holdsLoop_iff.symm

/-- A text without semicolons has one loop at most. -/
theorem allMatches_of_undivided {text : List Char} (h : ';' ∉ text) :
    allMatches countedLoop? text = if HoldsLoop text then [()] else [] := by
  have sweep := sweeps_allMatches isAnchored_countedLoop? text
  cases hmatches : allMatches countedLoop? text with
  | nil => rw [if_neg (fun hholds => holdsLoop_iff.1 hholds hmatches)]
  | cons found others =>
      have hholds : HoldsLoop text := holdsLoop_iff.2 (by simp [hmatches])
      rw [if_pos hholds]
      rw [hmatches] at sweep
      cases sweep with
      | take _ hfirst _ onward =>
          cases onward with
          | done _ => rfl
          | take ahead hother _ _ =>
              exact absurd ahead (lt_stop_of_foundAt h hfirst hother).not_ge

private theorem length_allMatches_countedLoop? (code : List Char) :
    (allMatches countedLoop? code).length =
      (split ';' code).countP (HoldsLoop ·) := by
  have hpieces : ∀ piece ∈ split ';' code, ';' ∉ piece :=
    fun _ => mark_not_mem_of_mem_split
  rw [isConfined_countedLoop?.allMatches_eq_flatMap]
  generalize split ';' code = pieces at hpieces ⊢
  induction pieces with
  | nil => rfl
  | cons piece pieces ih =>
      obtain ⟨hpiece, hothers⟩ := List.forall_mem_cons.1 hpieces
      rw [List.flatMap_cons, List.length_append, allMatches_of_undivided hpiece,
        ih hothers, List.countP_cons]
      by_cases hholds : HoldsLoop piece <;> simp [hholds, Nat.add_comm]

/-! ## Findings -/

theorem countP_forLoop_scanCounted {code : List Char} {report : Report}
    (returned : scanCounted code = .ok report) :
    report.findings.countP (·.construct = "For Loop") =
      (allMatches countedLoop? code).length := by
  obtain ⟨functions, hfunctions, returned⟩ := bind_eq_ok_iff.1 returned
  cases returned
  have hloops : ∀ loop ∈ allMatches countedLoop? code,
      countedLoop.finding.construct = "For Loop" := fun _ _ => rfl
  have hheaders : ∀ o ∈ functions, o.finding.construct ≠ "For Loop" := by
    intro o ho
    rw [construct_of_mem_functions hfunctions o ho]
    decide
  rw [List.countP_eq_length_filter, Report.ofObservations, List.map_append,
    List.map_map, List.filter_append, filter_construct_eq_nil hheaders,
    List.append_nil]
  exact (congrArg List.length (filter_construct_eq_self hloops)).trans
    (List.length_map _)

end Scan

open Scan

/--
A counted loop has no semicolon in it, and the one that is found at a place is
the reading with, from the first part on, the longest parts.  So what is found
in a snippet in the manner of Pascal is what is found in its pieces between the
semicolons, which is one loop if any loop stands in the piece, and none
otherwise.  The scan fails only for an overlong number, and otherwise has as
many findings of loops as there are pieces in which one stands.
-/
theorem counted_findings_by_pieces (parse : Parser) (code : String) :
    (∀ r : LoopReading, ';' ∉ r.text) ∧
    (∀ previous text rest, countedLoop? previous text = some ((), rest) ↔
      ∃ r : LoopReading, r.IsTaken text ∧ text = r.text ++ rest) ∧
    allMatches countedLoop? code.toList =
      (Text.split ';' code.toList).flatMap (allMatches countedLoop?) ∧
    (∀ piece ∈ Text.split ';' code.toList,
      allMatches countedLoop? piece = if HoldsLoop piece then [()] else []) ∧
    FailsExactly (Profile.pascal.scan parse code)
      (Profile.pascal.HoldsOverlong parse code) ∧
    ∀ report, Profile.pascal.scan parse code = .ok report →
      report.findings.countP (·.construct = "For Loop") =
        (Text.split ';' code.toList).countP (HoldsLoop ·) :=
  ⟨LoopReading.text_undivided, fun _ _ _ =>
    LoopReading.countedLoop?_eq_some_iff_exists_isTaken,
    isConfined_countedLoop?.allMatches_eq_flatMap _,
    fun _ hpiece => allMatches_of_undivided (mark_not_mem_of_mem_split hpiece),
    Profile.scan_failsExactly .pascal _ nofun _,
    fun _ returned =>
      (countP_forLoop_scanCounted returned).trans
        (length_allMatches_countedLoop? _)⟩

def nestedPiece : List Char := "for i := 1 to n do for j := 1 to i do s(j)".toList

def countedSnippet : String :=
  "for i := 1 to n do for j := 1 to i do s(j);t;FOR k:=1TOnDO u"

def countedReport : Report where
  findings := [
    ⟨"For Loop", "Pascal for loop with linear iterations", .ofExpression "n"⟩,
    ⟨"For Loop", "Pascal for loop with linear iterations", .ofExpression "n"⟩]

theorem counted_findings_by_pieces_countedSnippet :
    nestedPiece ∈ Text.split ';' countedSnippet.toList ∧ HoldsLoop nestedPiece ∧
      allMatches countedLoop? nestedPiece = [()] ∧
      Profile.pascal.scan (Parser.knowing []) countedSnippet = .ok countedReport ∧
      countedReport.findings.countP (·.construct = "For Loop") =
        (Text.split ';' countedSnippet.toList).countP (HoldsLoop ·) := by
  have hpiece : nestedPiece ∈ Text.split ';' countedSnippet.toList := by
    decide +kernel
  have hholds : HoldsLoop nestedPiece := by decide +kernel
  have returned : Profile.pascal.scan (Parser.knowing []) countedSnippet =
      .ok countedReport := by decide +kernel
  obtain ⟨-, -, -, hpieces, -, hcount⟩ :=
    counted_findings_by_pieces (Parser.knowing []) countedSnippet
  have hfound := hpieces _ hpiece
  rw [if_pos hholds] at hfound
  exact ⟨hpiece, hholds, hfound, returned, hcount _ returned⟩

end SnippetGrowth
