import SnippetGrowth.Proofs.Notations
import SnippetGrowth.Proofs.ScriptFindings
import SnippetGrowth.Proofs.ScriptNumerals
import SnippetGrowth.Proofs.SelfCalls

/-!
# When an analysis fails

What can be wrong with a snippet is reported as part of its analysis, with one
exception: the limit on the digits of whole numbers that are read or written.
An analysis gives no answer exactly if its scan comes upon a longer number,
and then the failure is that of the limit.

Each step of a scan comes with the condition under which it fails, and the
conditions add up along sequences and traversals of steps.
-/

namespace SnippetGrowth

open Scan

/-! ## Failures of the limit -/

def Failure.IsLimit (failure : Failure) : Prop :=
  failure = .tooLongToWrite ∨ ∃ digits, digitLimit < digits ∧
    failure = .tooLongToRead digits

/-- Whether an outcome is a failure exactly if some number is overlong, and then
a failure of the limit. -/
structure FailsExactly {α : Type} (outcome : Except Failure α) (overlong : Prop) :
    Prop where
  fails_iff : (∃ failure, outcome = .error failure) ↔ overlong
  limit : ∀ failure, outcome = .error failure → failure.IsLimit

namespace FailsExactly

variable {α β : Type} {overlong other : Prop}

theorem congr {outcome : Except Failure α} (h : FailsExactly outcome overlong)
    (heq : overlong ↔ other) : FailsExactly outcome other :=
  ⟨h.fails_iff.trans heq, h.limit⟩

theorem ok (result : α) : FailsExactly (.ok result) False :=
  ⟨by simp, by simp⟩

theorem error {failure : Failure} (h : failure.IsLimit) (holds : overlong) :
    FailsExactly (.error failure : Except Failure α) overlong := by
  refine ⟨iff_of_true ⟨failure, rfl⟩ holds, ?_⟩
  rintro _ ⟨⟩
  exact h

theorem exists_ok {outcome : Except Failure α} (h : FailsExactly outcome overlong)
    (hnot : ¬ overlong) : ∃ result, outcome = .ok result := by
  cases outcome with
  | ok result => exact ⟨result, rfl⟩
  | error failure => exact absurd (h.fails_iff.1 ⟨failure, rfl⟩) hnot

theorem not_of_ok {outcome : Except Failure α} (h : FailsExactly outcome overlong)
    {result : α} (returned : outcome = .ok result) : ¬ overlong := by
  rw [← h.fails_iff, returned]
  simp

theorem map {outcome : Except Failure α} (h : FailsExactly outcome overlong)
    (f : α → β) :
    FailsExactly (outcome.map f) overlong := by
  constructor
  · simpa only [map_eq_error_iff] using h.fails_iff
  · intro failure failed
    exact h.limit failure (map_eq_error_iff.1 failed)

theorem bind {first : Except Failure α} {next : α → Except Failure β}
    {later : α → Prop} (hfirst : FailsExactly first overlong)
    (hnext : ∀ value, first = .ok value →
      FailsExactly (next value) (later value)) :
    FailsExactly (first >>= next) (overlong ∨ ∃ value, first = .ok value ∧
      later value) := by
  cases first with
  | error failure =>
      have holds := hfirst.fails_iff.1 ⟨failure, rfl⟩
      exact error (hfirst.limit failure rfl) (.inl holds)
  | ok value =>
      refine (hnext value rfl).congr ?_
      simp [hfirst.not_of_ok rfl]

theorem mapM {f : α → Except Failure β} {items : List α} {step : α → Prop}
    (h : ∀ item ∈ items, FailsExactly (f item) (step item)) :
    FailsExactly (items.mapM f) (∃ item ∈ items, step item) := by
  constructor
  · rw [mapM_fails_iff]
    constructor
    · rintro ⟨item, hitem, hfails⟩
      exact ⟨item, hitem, (h item hitem).fails_iff.1 hfails⟩
    · rintro ⟨item, hitem, hstep⟩
      exact ⟨item, hitem, (h item hitem).fails_iff.2 hstep⟩
  · intro failure failed
    obtain ⟨item, hitem, herror⟩ := exists_of_mapM_eq_error failed
    exact (h item hitem).limit failure herror

theorem bind_ok {first : Except Failure α} (h : FailsExactly first overlong)
    (f : α → β) :
    FailsExactly (first >>= fun value => .ok (f value)) overlong := by
  refine (h.bind fun value _ => ok (f value)).congr ?_
  simp

end FailsExactly

/-! ## Reading and writing numbers -/

def Number.IsOverlong : Number → Prop
  | .whole n => 10 ^ digitLimit ≤ n.natAbs
  | .real _ => False

theorem Number.text_failsExactly (number : Number) :
    FailsExactly number.text number.IsOverlong := by
  cases number with
  | real x => exact .ok _
  | whole n =>
      rw [Number.text, wholeText]
      split
      · next hshort =>
          exact (FailsExactly.ok _).congr
            (iff_of_false id (Nat.not_le.2 hshort))
      · next hlong => exact .error (.inl rfl) (Nat.not_lt.1 hlong)

theorem readDigits_failsExactly (digits : List Char) :
    FailsExactly (readDigits digits) (digitLimit < digits.length) := by
  unfold readDigits
  split
  · next hshort =>
      exact (FailsExactly.ok _).congr (iff_of_false id (Nat.not_lt.2 hshort))
  · next hlong =>
      exact .error (.inr ⟨_, Nat.not_le.1 hlong, rfl⟩) (Nat.not_le.1 hlong)

theorem Text.digitValue?_lt {c : Char} {value : Nat}
    (h : Text.digitValue? c = some value) :
    value < 10 := by
  obtain ⟨first, hfirst, rfl⟩ := Option.map_eq_some_iff.1 h
  have hrange := List.find?_some hfirst
  simp only [Bool.and_eq_true, decide_eq_true_eq] at hrange
  omega

theorem Text.digitsValue_lt (digits : List Char) :
    Text.digitsValue digits < 10 ^ digits.length := by
  have hfold : ∀ (values : List Nat) (start : Nat),
      (∀ value ∈ values, value < 10) →
      values.foldl (fun value digit => 10 * value + digit) start <
        (start + 1) * 10 ^ values.length := by
    intro values
    induction values with
    | nil => simp
    | cons first values ih =>
        intro start hvalues
        have hfirst := hvalues first List.mem_cons_self
        have hrest := ih (10 * start + first) fun v hv =>
          hvalues v (List.mem_cons_of_mem first hv)
        rw [List.foldl_cons, List.length_cons, Nat.pow_succ]
        calc values.foldl (fun value digit => 10 * value + digit)
              (10 * start + first)
            < (10 * start + first + 1) * 10 ^ values.length := hrest
          _ ≤ (start + 1) * 10 * 10 ^ values.length :=
              Nat.mul_le_mul_right _ (by omega)
          _ = (start + 1) * (10 ^ values.length * 10) := by
              rw [Nat.mul_assoc, Nat.mul_comm 10]
  have hvalues : ∀ value ∈ digits.filterMap Text.digitValue?, value < 10 := by
    intro value hvalue
    obtain ⟨c, -, hc⟩ := List.mem_filterMap.1 hvalue
    exact Text.digitValue?_lt hc
  calc Text.digitsValue digits
      < (0 + 1) * 10 ^ (digits.filterMap Text.digitValue?).length :=
        hfold _ 0 hvalues
    _ = 10 ^ (digits.filterMap Text.digitValue?).length := by
        rw [Nat.zero_add, Nat.one_mul]
    _ ≤ 10 ^ digits.length :=
        Nat.pow_le_pow_right (by decide) (List.length_filterMap_le _ _)

/-- A number that can be read can be written. -/
theorem not_isOverlong_of_readDigits {digits : List Char} {n : Nat}
    (returned : readDigits digits = .ok n) : ¬ (Number.whole n).IsOverlong := by
  unfold readDigits at returned
  split at returned
  · next hshort =>
      cases returned
      have hvalue := Text.digitsValue_lt digits
      have hlimit : 10 ^ digits.length ≤ 10 ^ digitLimit :=
        Nat.pow_le_pow_right (by decide) hshort
      rw [Number.IsOverlong, Int.natAbs_natCast, Nat.not_le]
      exact Nat.lt_of_lt_of_le hvalue hlimit
  · contradiction

/-! ## Recurrences -/

def Recurrence.IsOverlong (r : Recurrence) : Prop :=
  r.branching.IsOverlong ∨ r.reduction.IsOverlong

theorem Recurrence.texts_failsExactly {α : Type} (r : Recurrence)
    (f : String → String → α) :
    FailsExactly (r.branching.text >>= fun branching =>
      r.reduction.text >>= fun reduction =>
      .ok (f branching reduction)) r.IsOverlong := by
  have hbranching := r.branching.text_failsExactly
  have hreduction := r.reduction.text_failsExactly
  refine (hbranching.bind
    fun branching _ => hreduction.bind_ok (f branching)).congr ?_
  constructor
  · rintro (hlong | ⟨branching, -, hlong⟩)
    · exact .inl hlong
    · exact .inr hlong
  · rintro (hlong | hlong)
    · exact .inl hlong
    · by_cases hfirst : r.branching.IsOverlong
      · exact .inl hfirst
      · obtain ⟨branching, htext⟩ := hbranching.exists_ok hfirst
        exact .inr ⟨branching, htext, hlong⟩

namespace Scan

/-! ## Call sites -/

def CallStyle.calls (style : CallStyle) (code name : List Char) : Nat :=
  (allMatches (style.site? name) code).length -
    (allMatches (style.declaration? name) code).length

/-- Whether a function has a dividing call site, and either the leftmost one
divides by a numeral that is too long to read, or the calls are too many to be
written. -/
def CallStyle.IsOverlong (style : CallStyle) (code name : List Char) : Prop :=
  ∃ divisor, firstMatch? (style.dividingSite? name) code = some divisor ∧
    (digitLimit < divisor.length ∨ 10 ^ digitLimit ≤ style.calls code name)

theorem infer_failsExactly (style : CallStyle) (code name : List Char) :
    FailsExactly (style.infer code name)
      (∃ divisor, firstMatch? (style.dividingSite? name) code = some divisor ∧
        digitLimit < divisor.length) := by
  unfold CallStyle.infer
  cases firstMatch? (style.dividingSite? name) code with
  | none => exact (FailsExactly.ok _).congr (by simp)
  | some divisor =>
      exact ((readDigits_failsExactly divisor).bind_ok _).congr (by simp)

private theorem not_isOverlong_one : ¬ (Number.whole 1).IsOverlong := by
  have hlimit : 1 < 10 ^ digitLimit := Nat.one_lt_pow (by decide) (by decide)
  rw [Number.IsOverlong]
  simpa using hlimit

private theorem isOverlong_max_one_iff (n : Nat) :
    (Number.whole (max (n : Int) 1)).IsOverlong ↔ 10 ^ digitLimit ≤ n := by
  have hlimit : 1 < 10 ^ digitLimit := Nat.one_lt_pow (by decide) (by decide)
  have habs : (max (n : Int) 1).natAbs = max n 1 := by omega
  rw [Number.IsOverlong, habs]
  omega

private theorem isOverlong_of_infer {style : CallStyle} {code name : List Char}
    {r : Recurrence} (returned : style.infer code name = .ok r) :
    r.IsOverlong ↔
      ∃ divisor, firstMatch? (style.dividingSite? name) code = some divisor ∧
      10 ^ digitLimit ≤ style.calls code name := by
  unfold CallStyle.infer at returned
  cases hfirst : firstMatch? (style.dividingSite? name) code with
  | none =>
      rw [hfirst] at returned
      cases returned
      simp [Recurrence.IsOverlong, not_isOverlong_one]
  | some divisor =>
      rw [hfirst] at returned
      obtain ⟨reduction, hreduction, returned⟩ := bind_eq_ok_iff.1 returned
      cases returned
      simp [Recurrence.IsOverlong, not_isOverlong_of_readDigits hreduction,
        isOverlong_max_one_iff, CallStyle.calls]

theorem ofFunction_failsExactly (style : CallStyle) (code name : List Char) :
    FailsExactly (ofFunction style code name) (style.IsOverlong code name) := by
  have hinfer := infer_failsExactly style code name
  refine (hinfer.bind fun r _ => r.texts_failsExactly _).congr ?_
  constructor
  · rintro (⟨divisor, hfirst, hlong⟩ | ⟨r, hr, hlong⟩)
    · exact ⟨divisor, hfirst, .inl hlong⟩
    · obtain ⟨divisor, hfirst, hmany⟩ := (isOverlong_of_infer hr).1 hlong
      exact ⟨divisor, hfirst, .inr hmany⟩
  · rintro ⟨divisor, hfirst, hlong | hmany⟩
    · exact .inl ⟨divisor, hfirst, hlong⟩
    · by_cases hlong : ∃ divisor, firstMatch? (style.dividingSite? name) code =
        some divisor ∧
          digitLimit < divisor.length
      · exact .inl hlong
      · obtain ⟨r, hr⟩ := hinfer.exists_ok hlong
        exact .inr ⟨r, hr, (isOverlong_of_infer hr).2 ⟨divisor, hfirst, hmany⟩⟩

/-! ## Loop headers -/

private theorem exists_afterParenthesis? {text : List Char} (h : '(' ∈ text) :
    ∃ rest, afterParenthesis? text = some rest := by
  induction text with
  | nil => simp at h
  | cons c text ih =>
      rw [afterParenthesis?]
      split
      · exact ⟨text, rfl⟩
      · next hc =>
          rcases List.mem_cons.1 h with rfl | h
          · exact absurd rfl hc
          · exact ih h

private theorem parenthesis_mem_of_mem_headers {keyword : String}
    {code header : List Char}
    (h : header ∈ headers keyword code) : '(' ∈ header := by
  obtain ⟨front, inside, rfl⟩ := shape_of_mem_headers h
  simp

theorem exists_isMultiplicativeUpdate {keyword : String} {code header : List Char}
    (h : header ∈ headers keyword code) :
    ∃ multiplicative, isMultiplicativeUpdate header = .ok multiplicative := by
  obtain ⟨rest, hrest⟩ :=
    exists_afterParenthesis? (parenthesis_mem_of_mem_headers h)
  rw [isMultiplicativeUpdate, hrest]
  exact ⟨_, rfl⟩

theorem scanHeaders_failsExactly (code : List Char) :
    FailsExactly (scanHeaders code) False := by
  have heach : ∀ header ∈ headers "for" code,
      FailsExactly (ofHeader (nestingReached (Text.lines code)) header)
          False := by
    intro header hheader
    unfold ofHeader
    split
    · exact .ok _
    · obtain ⟨multiplicative, hupdate⟩ := exists_isMultiplicativeUpdate hheader
      rw [hupdate]
      exact .ok _
  exact ((FailsExactly.mapM heach).bind_ok _).congr (by simp)

/-! ## Function declarations -/

/-- Whether a declaration calls itself and its recurrence has an overlong factor. -/
def DeclaresOverlong (declaration : Node) : Prop :=
  ∃ name, declaration.child? "name" = some name ∧
    callsIn declaration name.text ≠ [] ∧
    (inferredRecurrence declaration (callsIn declaration name.text)).IsOverlong

private theorem exists_declaredRecurrence? {declaration : Node}
    (divisible : ∀ call ∈ declaration.preorder, ∃ value,
      divisor call = .ok value) :
    ∃ recurrence, declaredRecurrence? declaration = .ok recurrence := by
  cases outcome : declaredRecurrence? declaration with
  | ok recurrence => exact ⟨recurrence, rfl⟩
  | error failure =>
      unfold declaredRecurrence? at outcome
      split at outcome
      · contradiction
      · next name _ =>
          rcases bind_eq_error_iff.1 outcome with failed | ⟨values, -, failed⟩
          · obtain ⟨call, hcall, herror⟩ := exists_of_mapM_eq_error failed
            rw [selfCalls_eq] at hcall
            obtain ⟨value, hvalue⟩ := divisible call (List.mem_filter.1 hcall).1
            rw [hvalue] at herror
            contradiction
          · split at failed <;> contradiction

private theorem ofDeclaration_failsExactly {declaration : Node}
    (divisible : ∀ call ∈ declaration.preorder, ∃ value,
      divisor call = .ok value) :
    FailsExactly (ofDeclaration declaration) (DeclaresOverlong declaration) := by
  obtain ⟨recurrence, hrecurrence⟩ := exists_declaredRecurrence? divisible
  have hinferred := declaredRecurrence?_eq hrecurrence
  have hoverlong : DeclaresOverlong declaration ↔
      ∃ r ∈ recurrence, r.IsOverlong := by
    rw [hinferred, DeclaresOverlong]
    cases declaration.child? "name" with
    | none => simp
    | some name =>
        have hcalls : callsIn declaration name.text ≠ [] ↔
            1 ≤ (callsIn declaration name.text).length := List.length_pos_iff.symm
        simp [hcalls, and_comm]
  rw [ofDeclaration, hrecurrence]
  cases recurrence with
  | none => exact (FailsExactly.ok _).congr (by simp [hoverlong])
  | some r => exact (r.texts_failsExactly _).congr (by simp [hoverlong])

private theorem ofNode_failsExactly {node : Node}
    (divisible : ∀ call ∈ node.preorder, ∃ value, divisor call = .ok value) :
    FailsExactly (ofNode node) (isDeclaration node = true ∧
      DeclaresOverlong node) := by
  unfold ofNode
  split
  · next hfor => exact (FailsExactly.ok _).congr (by simp [isDeclaration, hfor])
  · split
    · next hwhile =>
        exact (FailsExactly.ok _).congr (by simp [isDeclaration, hwhile])
    · split
      · next hkind =>
          exact (ofDeclaration_failsExactly divisible).congr (by simp [hkind])
      · next hkind => exact (FailsExactly.ok _).congr (by simp [hkind])

private theorem scanTree_failsExactly {tree : Tree}
    (numerals : tree.hasError = false → tree.HasNumerals) :
    FailsExactly (scanTree tree) (tree.hasError = false ∧
      ∃ node ∈ tree.root.preorder, isDeclaration node = true ∧
        DeclaresOverlong node) := by
  cases hclean : tree.hasError with
  | true =>
      rw [scanTree, Tree.firstError, hclean]
      exact (FailsExactly.ok _).congr (by simp)
  | false =>
      have heach : ∀ node ∈ tree.root.preorder,
          FailsExactly (ofNode node) (isDeclaration node = true ∧
              DeclaresOverlong node) := by
        intro node hnode
        refine ofNode_failsExactly fun call hcall => ?_
        exact exists_divisor (numerals hclean)
          (Node.mem_preorder_trans hnode hcall)
      rw [scanTree, firstError_eq_none hclean, Node.walk_eq]
      exact ((FailsExactly.mapM heach).bind_ok _).congr (by simp)

end Scan

/-! ## Snippets -/

/-- Whether a profile's scan of a snippet comes upon a number that is too long. -/
def Profile.HoldsOverlong (profile : Profile) (parse : Parser) (code : String) :
    Prop :=
  match profile with
  | c => False
  | python => ∃ name ∈ allMatches definition? code.toList,
      definitionStyle.IsOverlong code.toList name
  | pascal => ∃ name ∈ allMatches functionHeader? code.toList,
      functionStyle.IsOverlong code.toList name
  | javascript => (parse code).hasError = false ∧
      ∃ node ∈ (parse code).root.preorder, isDeclaration node = true ∧
        DeclaresOverlong node

theorem Profile.scan_failsExactly (profile : Profile) (parse : Parser)
    (numerals : profile = .javascript → parse.ReadsNumerals) (code : String) :
    FailsExactly (profile.scan parse code)
      (profile.HoldsOverlong parse code) := by
  cases profile with
  | c => exact scanHeaders_failsExactly code.toList
  | python =>
      refine (FailsExactly.mapM fun name _ => ?_).bind_ok _
      exact ofFunction_failsExactly definitionStyle code.toList name
  | pascal =>
      refine (FailsExactly.mapM fun name _ => ?_).bind_ok _
      exact ofFunction_failsExactly functionStyle code.toList name
  | javascript => exact scanTree_failsExactly (numerals rfl code)

private theorem analyze_failsExactly {parse : Parser}
    (numerals : parse.ReadsNumerals) (code : String) :
    FailsExactly (analyze parse code)
      (Scannable code ∧ (Profile.detect code).HoldsOverlong parse code) := by
  rcases blank_or_long_or_scannable code with
    hblank | ⟨hvisible, hlong⟩ | hscannable
  · rw [analyze_of_blank hblank]
    refine (FailsExactly.ok _).congr (iff_of_false id ?_)
    rintro ⟨⟨⟨c, hmem, hc⟩, -⟩, -⟩
    rw [hblank c hmem] at hc
    contradiction
  · rw [analyze_of_long hvisible hlong]
    refine (FailsExactly.ok _).congr (iff_of_false id ?_)
    rintro ⟨hscannable, -⟩
    have := hscannable.short
    omega
  · rw [analyze_of_scannable hscannable]
    refine (((Profile.detect code).scan_failsExactly parse
      (fun _ => numerals) code).map _).congr ?_
    simp [hscannable]

/--
An analysis gives an answer unless the snippet is scanned and holds a number
that is too long.  A blank snippet, one with too many lines and a script that
cannot be read have the failure in their answer; a number that is too long is
not reported there, and ends the analysis with the failure of the limit.
-/
theorem analyze_fails_iff_holdsOverlong {parse : Parser}
    (numerals : parse.ReadsNumerals) (code : String) :
    ((∃ failure, analyze parse code = .error failure) ↔
      Scannable code ∧ (Profile.detect code).HoldsOverlong parse code) ∧
    (∀ failure, analyze parse code = .error failure → failure = .tooLongToWrite ∨
      ∃ digits, digitLimit < digits ∧ failure = .tooLongToRead digits) ∧
    ((∀ c ∈ code.toList, Text.isBlank c = true) →
      analyze parse code = .ok (.ofError "Empty code input")) ∧
    ((∃ c ∈ code.toList, Text.isBlank c = false) → 500 ≤ code.toList.count '\n' →
      analyze parse code = .ok (.ofError "Code exceeds 500 lines limit")) ∧
    (Scannable code → Profile.detect code = .javascript →
      (parse code).hasError = true →
      ∃ description,
        analyze parse code = .ok (.ofError (parsingError description))) := by
  have hfails := analyze_failsExactly numerals code
  refine ⟨hfails.fails_iff, hfails.limit, analyze_of_blank, analyze_of_long, ?_⟩
  intro hscannable hdetect hwrong
  obtain ⟨description, hdescription⟩ : ∃ description,
      (parse code).firstError = some description := by
    rw [Tree.firstError, hwrong]
    exact ⟨_, rfl⟩
  refine ⟨description, ?_⟩
  rw [analyze_of_scannable hscannable, hdetect, Profile.scan, scanTree,
    hdescription]
  rfl

/-! ## A definition with a long divisor -/

def divisionOpening : List Char := "def f(n):\n    return f(n/".toList

def divisionText (digits : Nat) : List Char :=
  divisionOpening ++ (List.replicate digits '1' ++ [')'])

def divisionSnippet (digits : Nat) : String := String.ofList (divisionText digits)

private theorem not_mem_divisionText {digits : Nat} {c : Char}
    (habsent : c ∉ divisionOpening ++ ['1', ')']) : c ∉ divisionText digits := by
  intro h
  apply habsent
  rcases List.mem_append.1 h with h | h
  · exact List.mem_append_left _ h
  · rcases List.mem_append.1 h with h | h
    · simp [(List.mem_replicate.1 h).2]
    · simp [List.mem_singleton.1 h]

theorem scannable_divisionSnippet (digits : Nat) :
    Scannable (divisionSnippet digits) := by
  rw [divisionSnippet]
  constructor
  · rw [String.toList_ofList]
    exact ⟨'d', List.mem_append_left _ (by decide), by decide⟩
  · have hcount : (divisionText digits).count '\n' = 1 := by
      have hopening : divisionOpening.count '\n' = 1 := by decide
      rw [divisionText, List.count_append, List.count_append,
        List.count_replicate, hopening]
      rfl
    rw [String.toList_ofList, hcount]
    decide

private theorem strip_divisionText (digits : Nat) :
    Text.strip (divisionText digits) = divisionText digits := by
  have hstart : Text.dropBlanks (divisionText digits) = divisionText digits := rfl
  have hend : Text.dropBlanks (divisionText digits).reverse =
      (divisionText digits).reverse := by
    rw [divisionText, List.reverse_append, List.reverse_append]
    rfl
  rw [Text.strip, hstart, hend, List.reverse_reverse]

private theorem detect_divisionSnippet (digits : Nat) :
    Profile.detect (divisionSnippet digits) = .python := by
  have hlower : Profile.normalized (divisionText digits) =
      divisionText digits := by
    rw [Profile.normalized, strip_divisionText, divisionText, List.map_append,
      List.map_append, List.map_replicate]
    rfl
  have hinclude : Text.occursIn "#include".toList (divisionText digits) = false :=
    Text.occursIn_eq_false_of_mem (c := '#')
      (by decide) (not_mem_divisionText (by decide))
  have hmain : Text.occursIn "int main".toList (divisionText digits) = false :=
    Text.occursIn_eq_false_of_mem (c := 'm')
      (by decide) (not_mem_divisionText (by decide))
  have hvoid : Text.occursIn "void ".toList (divisionText digits) = false :=
    Text.occursIn_eq_false_of_mem (c := 'v')
      (by decide) (not_mem_divisionText (by decide))
  have hdef : Text.occursIn "def ".toList (divisionText digits) = true := by
    rw [Text.occursIn_iff]
    exact ⟨[],
      "f(n):\n    return f(n/".toList ++ (List.replicate digits '1' ++ [')']),
      rfl⟩
  rw [Profile.detect, divisionSnippet, String.toList_ofList, hlower]
  simp only [Profile.markers, List.find?_cons, List.any_cons, hinclude, hmain,
    hvoid, hdef, List.any_nil, Bool.or_false, Bool.true_or]

private theorem firstMatch?_divisionText {digits : Nat} (hdigits : digits ≠ 0) :
    firstMatch? (definitionStyle.dividingSite? ['f']) (divisionText digits) =
      some (List.replicate digits '1') := by
  have hskip :
      firstMatch? (definitionStyle.dividingSite? ['f']) (divisionText digits) =
      firstMatchFrom? (definitionStyle.dividingSite? ['f']) (some ' ')
        ('f' :: '(' :: 'n' :: '/' :: (List.replicate digits '1' ++ [')'])) := rfl
  have hclosing : ')' ∉ 'n' :: '/' :: List.replicate digits '1' := by
    simp [List.mem_replicate]
  have hsite : definitionStyle.site? ['f'] (some ' ')
      ('f' :: '(' :: 'n' :: '/' :: (List.replicate digits '1' ++ [')'])) =
        some ('n' :: '/' :: List.replicate digits '1', []) :=
    closed?_eq_some_iff.2 ⟨rfl, hclosing⟩
  have hdivides : DividesBy ('n' :: '/' :: List.replicate digits '1')
      (List.replicate digits '1') := by
    refine ⟨['n'], [], rfl, List.forall_mem_nil _,
      by simpa using hdigits, fun c hc => ?_⟩
    rw [(List.mem_replicate.1 hc).2]
    decide
  have hdivisor := divisor?_eq_some_iff.2 hdivides
  have hfound : definitionStyle.dividingSite? ['f'] (some ' ')
      ('f' :: '(' :: 'n' :: '/' :: (List.replicate digits '1' ++ [')'])) =
        some (List.replicate digits '1', []) := by
    simp only [CallStyle.dividingSite?, hsite, hdivisor, Option.bind_eq_bind,
      Option.bind_some]
  rw [hskip, firstMatchFrom?, hfound]

theorem analyze_divisionSnippet {parse : Parser} {digits : Nat}
    (hdigits : digitLimit < digits) :
    analyze parse (divisionSnippet digits) = .error (.tooLongToRead digits) := by
  have hread : readDigits (List.replicate digits '1') =
      .error (.tooLongToRead digits) := by
    rw [readDigits, List.length_replicate, if_neg (Nat.not_le.2 hdigits)]
  have hfunction : ofFunction definitionStyle (divisionText digits) ['f'] =
      .error (.tooLongToRead digits) := by
    rw [ofFunction, CallStyle.infer, firstMatch?_divisionText (by omega)]
    simp only [hread]
    rfl
  obtain ⟨others, hothers⟩ : ∃ others,
      allMatches definition? (divisionText digits) = ['f'] :: others := ⟨_, rfl⟩
  rw [analyze_of_scannable (scannable_divisionSnippet digits),
    detect_divisionSnippet, Profile.scan, scanRanges, divisionSnippet,
    String.toList_ofList, hothers, List.mapM_cons,
    hfunction]
  rfl

theorem analyze_overlongDivisor :
    analyze (Parser.knowing []) (divisionSnippet 4301) =
      .error (.tooLongToRead 4301) :=
  analyze_divisionSnippet (by decide)

/-! ## A script with a short divisor -/

def halvingFunction : String := "function f(n) \x7b return f(n / 2); \x7d"

def halvingCall : Node where
  kind := "call_expression"
  children := [
    { kind := "identifier", field := some "function", text := "f" },
    { kind := "arguments", field := some "arguments"
      children := [
        { kind := "(", named := false },
        { kind := "binary_expression"
          children := [
            { kind := "identifier", field := some "left", text := "n" },
            { kind := "/", named := false, field := some "operator" },
            { kind := "number", field := some "right", text := "2" }] },
        { kind := ")", named := false }] }]

def halvingTree : Node where
  kind := "program"
  children := [
    { kind := "function_declaration"
      children := [
        { kind := "function", named := false },
        { kind := "identifier", field := some "name", text := "f" },
        { kind := "formal_parameters", field := some "parameters"
          children := [
            { kind := "(", named := false },
            { kind := "required_parameter"
              children := [
                { kind := "identifier", field := some "pattern", text := "n" }] },
            { kind := ")", named := false }] },
        { kind := "statement_block", field := some "body"
          children := [
            { kind := "\x7b", named := false },
            { kind := "return_statement"
              children := [
                { kind := "return", named := false }, halvingCall,
                { kind := ";", named := false }] },
            { kind := "\x7d", named := false }] }] }]

def halvingParser : Parser := Parser.knowing [(halvingFunction, halvingTree)]

private theorem readsNumerals_halvingParser : halvingParser.ReadsNumerals := by
  intro code hclean
  have hknown : code = halvingFunction := by
    by_contra hother
    have hlookup : [(halvingFunction, halvingTree)].lookup code = none := by
      simpa [List.lookup_eq_none_iff] using hother
    rw [halvingParser, Parser.knowing, hlookup] at hclean
    contradiction
  have htree : halvingParser code = { root := halvingTree } := by
    rw [hknown]
    rfl
  rw [htree]
  constructor
  · intro node hnode hkind hnamed
    have htwo : ∀ node ∈ halvingTree.preorder, node.kind = "number" →
        node.text = "2" := by
      decide +kernel
    have hdigit : IsDigitOf 10 '2' 2 := ⟨by decide, .inl rfl⟩
    have hspelled : Spells 10 "2".toList [2] := .last hdigit
    rw [htwo node hnode hkind]
    exact .whole (.decimal hspelled)
  · intro node hnode hkind right hright
    have hoperands : ∀ node ∈ halvingTree.preorder,
        node.kind = "binary_expression" →
        (node.child? "right").all (·.named) = true := by
      decide +kernel
    have hall := hoperands node hnode hkind
    rwa [hright] at hall

/-- The script is scanned without a long number, and the definitions with one
are not. -/
theorem analyze_fails_iff_holdsOverlong_halvingParser :
    halvingParser.ReadsNumerals ∧
      (∃ result, analyze halvingParser halvingFunction = .ok result ∧
        result.findings.length = 1 ∧ result.space = .ofLabel "log_2 n") ∧
      ¬ (Scannable halvingFunction ∧
        (Profile.detect halvingFunction).HoldsOverlong halvingParser
          halvingFunction) ∧
      ∀ digits, digitLimit < digits →
        (∃ failure,
          analyze halvingParser (divisionSnippet digits) = .error failure) ∧
          (Profile.detect (divisionSnippet digits)).HoldsOverlong halvingParser
            (divisionSnippet digits) := by
  have returned : analyze halvingParser halvingFunction = .ok {
      time := .ofLabel "n"
      space := .ofLabel "log_2 n"
      findings := [⟨"Recursive Function",
        "Recursive function with 1 calls, n/2 reduction, O(n) extra work",
        .ofLabel "n"⟩]
      average := .ofLabel "n" } := by
    decide +kernel
  refine ⟨readsNumerals_halvingParser, ⟨_, returned, rfl, rfl⟩, fun h => ?_,
    fun digits hdigits => ?_⟩
  · obtain ⟨hfails, -⟩ :=
      analyze_fails_iff_holdsOverlong readsNumerals_halvingParser halvingFunction
    obtain ⟨failure, hfailure⟩ := hfails.2 h
    rw [returned] at hfailure
    contradiction
  · obtain ⟨hfails, -⟩ :=
      analyze_fails_iff_holdsOverlong readsNumerals_halvingParser
        (divisionSnippet digits)
    have hfailed : ∃ failure, analyze halvingParser (divisionSnippet digits) =
        .error failure :=
      ⟨_, analyze_divisionSnippet hdigits⟩
    exact ⟨hfailed, (hfails.1 hfailed).2⟩

end SnippetGrowth
