import Questionnaire.Proofs.Condition.Open

/-!
# Selected values and candidates as sets

Selected values and candidates are compared by their texts (`plainText`), in which an integer and
the text of its digits are the same. A test of selected values sees two sets of such texts: it does
not matter in which order values and candidates stand or how often (`testSelection_congr`), and more
candidates join the tests of the two parts (`selections_as_sets`).

Only an integer out of range has no such text. No set is formed with one, and there is no verdict.
-/

namespace Questionnaire.Condition

/-! ## Texts to compare by -/

/-- The text by which a value is compared with others: a number without a fraction is written as an
integer, any other value as it is shown. -/
def plainText : Value → String
  | .float x =>
    match x.toInt? with
    | some i => toString i
    | none => Value.display (.float x)
  | v => v.display

/-- Values that count as the same selection. -/
def SameForm (x y : Value) : Prop := plainText x = plainText y

instance (x y : Value) : Decidable (SameForm x y) := inferInstanceAs (Decidable (_ = _))

theorem outOfRange_int {i : Int} : OutOfRange (.int i) ↔ ¬Binary64.InRange i := by
  constructor
  · rintro ⟨j, hj, hout⟩
    cases hj
    exact hout
  · exact fun hout => ⟨i, rfl, hout⟩

instance : ∀ x : Value, Decidable (OutOfRange x)
  | .int _ => decidable_of_iff _ outOfRange_int.symm
  | .null | .bool _ | .float _ | .text _ | .list _ | .map _ => isFalse nofun

variable {α : Type} {x y answer answer' : Value} {test : SelectionTest} {v v' : String}
  {candidates candidates' more : List Literal} {ctx ctx' : Context}

theorem normalForm_eq_ok (h : ¬OutOfRange x) : normalForm x = .ok (plainText x) := by
  cases x with
  | int i =>
    have hrange : Binary64.InRange i := Decidable.not_not.1 fun hi => h (outOfRange_int.2 hi)
    obtain ⟨y, hy⟩ := Option.isSome_iff_exists.1 ((Binary64.ofInt?_isSome_iff i).2 hrange)
    simp only [normalForm, hy]
    rfl
  | float x =>
    simp only [normalForm, plainText]
    cases x.toInt? <;> rfl
  | _ => rfl

theorem normalForm_eq_error (h : OutOfRange x) : normalForm x = .error .tooLarge := by
  obtain ⟨i, rfl, hi⟩ := h
  have hnone : Binary64.ofInt? i = none := by
    rwa [← Option.not_isSome_iff_eq_none, Binary64.ofInt?_isSome_iff]
  simp only [normalForm, hnone]

theorem mapM_normalForm {f : α → Value} : ∀ {l : List α}, (∀ a ∈ l, ¬OutOfRange (f a)) →
    (l.mapM fun a => normalForm (f a)) = .ok (l.map fun a => plainText (f a))
  | [], _ => rfl
  | a :: l, h => by
    rw [List.mapM_cons, normalForm_eq_ok (h a (.head _)),
      mapM_normalForm fun b hb => h b (.tail _ hb)]
    rfl

theorem mapM_normalForm_eq_error {f : α → Value} : ∀ {l : List α}, (∃ a ∈ l, OutOfRange (f a)) →
    (l.mapM fun a => normalForm (f a)) = .error .tooLarge
  | a :: l, h => by
    rw [List.mapM_cons]
    by_cases ha : OutOfRange (f a)
    · rw [normalForm_eq_error ha]
      rfl
    · obtain ⟨b, hb, hout⟩ := h
      have hmem : b ∈ l := by
        rcases List.mem_cons.1 hb with rfl | hb
        · exact absurd hout ha
        · exact hb
      rw [normalForm_eq_ok ha, mapM_normalForm_eq_error ⟨b, hmem, hout⟩]
      rfl

/-! ## Verdicts -/

/-- An answer and candidates without an integer out of range: texts, integers in range and values of
any other kind. -/
structure Comparable (answer : Value) (candidates : List Literal) : Prop where
  selected : ∀ x ∈ answer.selections, ¬OutOfRange x
  candidates : ∀ l ∈ candidates, ¬OutOfRange (Literal.value l)

/-- What a test says of the selected values. -/
def Selects (answer : Value) (candidates : List Literal) : SelectionTest → Prop
  | .any => ∃ x ∈ answer.selections, ∃ l ∈ candidates, SameForm x (Literal.value l)
  | .all => answer.selections ≠ [] ∧
      ∀ l ∈ candidates, ∃ x ∈ answer.selections, SameForm x (Literal.value l)
  | .none => ¬∃ x ∈ answer.selections, ∃ l ∈ candidates, SameForm x (Literal.value l)

/-- If no integer is out of range there is a verdict, and it says what the test says of the two
sets. -/
theorem testSelection_eq_ok (test : SelectionTest) (h : Comparable answer candidates) :
    ∃ verdict, testSelection test answer candidates = .ok verdict ∧
      (verdict = true ↔ Selects answer candidates test) := by
  have hselected : answer.selections.mapM normalForm = .ok (answer.selections.map plainText) :=
    mapM_normalForm h.selected
  have hcontains (l : Literal) :
      (answer.selections.map plainText).contains (plainText (Literal.value l)) = true ↔
        ∃ x ∈ answer.selections, SameForm x (Literal.value l) := by
    rw [List.contains_iff_mem, List.mem_map]
    rfl
  have hany : ((candidates.map fun l => plainText (Literal.value l)).any
      (answer.selections.map plainText).contains) = true ↔ Selects answer candidates .any := by
    rw [List.any_map, List.any_eq_true]
    simp only [Function.comp_apply, hcontains, Selects]
    exact ⟨fun ⟨l, hl, x, hx, hsame⟩ => ⟨x, hx, l, hl, hsame⟩,
      fun ⟨x, hx, l, hl, hsame⟩ => ⟨l, hl, x, hx, hsame⟩⟩
  rw [testSelection, hselected, mapM_normalForm h.candidates]
  refine ⟨_, rfl, ?_⟩
  cases test with
  | any => exact hany
  | all =>
    simp only [Bool.and_eq_true, Bool.not_eq_true', List.isEmpty_eq_false_iff, List.all_map,
      List.all_eq_true, Function.comp_apply, hcontains, Selects, ne_eq, List.map_eq_nil_iff]
  | none =>
    rw [Bool.not_eq_true', ← Bool.not_eq_true, hany]
    rfl

/-- With an integer out of range there is no verdict. -/
theorem testSelection_eq_error (test : SelectionTest) (h : ¬Comparable answer candidates) :
    testSelection test answer candidates = .error .tooLarge := by
  by_cases hselected : ∃ x ∈ answer.selections, OutOfRange x
  · have hfails : answer.selections.mapM normalForm = .error .tooLarge :=
      mapM_normalForm_eq_error hselected
    rw [testSelection, hfails]
    rfl
  · have hin : ∀ x ∈ answer.selections, ¬OutOfRange x := fun x hx hout => hselected ⟨x, hx, hout⟩
    have hok : answer.selections.mapM normalForm = .ok (answer.selections.map plainText) :=
      mapM_normalForm hin
    have hcandidates : ∃ l ∈ candidates, OutOfRange (Literal.value l) :=
      Classical.byContradiction fun hnone => h ⟨hin, fun l hl hout => hnone ⟨l, hl, hout⟩⟩
    rw [testSelection, hok, mapM_normalForm_eq_error hcandidates]
    rfl

/-- Only which values are selected and which candidates there are matters, not in which order or how
often. -/
theorem testSelection_congr (test : SelectionTest)
    (hselected : ∀ x, x ∈ answer'.selections ↔ x ∈ answer.selections)
    (hcandidates : ∀ l, l ∈ candidates' ↔ l ∈ candidates) :
    testSelection test answer' candidates' = testSelection test answer candidates := by
  have hcomparable : Comparable answer' candidates' ↔ Comparable answer candidates :=
    ⟨fun h => ⟨fun x hx => h.selected x ((hselected x).2 hx),
        fun l hl => h.candidates l ((hcandidates l).2 hl)⟩,
      fun h => ⟨fun x hx => h.selected x ((hselected x).1 hx),
        fun l hl => h.candidates l ((hcandidates l).1 hl)⟩⟩
  have hselects : Selects answer' candidates' test ↔ Selects answer candidates test := by
    cases test <;>
      simp only [Selects, hselected, hcandidates, ne_eq, List.eq_nil_iff_forall_not_mem]
  by_cases h : Comparable answer candidates
  · obtain ⟨verdict, hverdict, hiff⟩ := testSelection_eq_ok test h
    obtain ⟨verdict', hverdict', hiff'⟩ := testSelection_eq_ok test (hcomparable.2 h)
    rw [hverdict, hverdict', Bool.eq_iff_iff.2 (hiff'.trans (hselects.trans hiff.symm))]
  · rw [testSelection_eq_error test h,
      testSelection_eq_error test fun h' => h (hcomparable.1 h')]

/-! ## Conditions on selected values -/

theorem judge_selection (hanswer : ctx.resolve (.text v) = .ok answer) (test : SelectionTest)
    (candidates : List Literal) :
    (selection test v candidates).judge ctx = testSelection test answer candidates := by
  rw [judge, hanswer]
  rfl

theorem Comparable.append (h : Comparable answer candidates)
    (hmore : ∀ l ∈ more, ¬OutOfRange (Literal.value l)) : Comparable answer (candidates ++ more) :=
  ⟨h.selected, fun l hl => (List.mem_append.1 hl).elim (h.candidates l) (hmore l)⟩

/-- Candidates of two lists: some is selected if some of either list is, all are if all of both
lists are, and none is if none of either list is. -/
theorem selects_append : Selects answer (candidates ++ more) test ↔
    if test = .any then Selects answer candidates test ∨ Selects answer more test
    else Selects answer candidates test ∧ Selects answer more test := by
  have hany : Selects answer (candidates ++ more) .any ↔
      Selects answer candidates .any ∨ Selects answer more .any := by
    simp only [Selects, List.mem_append, or_and_right, exists_or, and_or_left]
  cases test with
  | any => exact hany
  | all =>
    simp only [Selects, List.forall_mem_append, reduceCtorEq, if_false]
    exact ⟨fun ⟨hne, hc, hm⟩ => ⟨⟨hne, hc⟩, hne, hm⟩, fun ⟨⟨hne, hc⟩, _, hm⟩ => ⟨hne, hc, hm⟩⟩
  | none => exact (not_congr hany).trans not_or

/-- Two conditions that have verdicts are joined to the verdict on both. -/
theorem judge_pair {k : Connective} {c d : Condition} {p q : Bool} (hc : c.judge ctx = .ok p)
    (hd : d.judge ctx = .ok q) : (joined k [c, d]).judge ctx =
      .ok (if k = .or then p || q else p && q) := by
  rw [judge_joined_cons, judge_joined_cons, hc, hd]
  cases k <;> cases p <;> cases q <;> rfl

/-- A test of two lists of candidates joins the tests of the lists. -/
theorem judge_append (hanswer : ctx.resolve (.text v) = .ok answer)
    (h : Comparable answer candidates) (hmore : ∀ l ∈ more, ¬OutOfRange (Literal.value l))
    (test : SelectionTest) : (selection test v (candidates ++ more)).judge ctx =
      (joined (if test = .any then .or else .and)
        [selection test v candidates, selection test v more]).judge ctx := by
  obtain ⟨verdict, hverdict, hiff⟩ := testSelection_eq_ok test (h.append hmore)
  obtain ⟨first, hfirst, hiff₁⟩ := testSelection_eq_ok test h
  obtain ⟨second, hsecond, hiff₂⟩ := testSelection_eq_ok test ⟨h.selected, hmore⟩
  rw [judge_pair ((judge_selection hanswer test candidates).trans hfirst)
    ((judge_selection hanswer test more).trans hsecond), judge_selection hanswer, hverdict]
  rw [selects_append, ← hiff₁, ← hiff₂] at hiff
  refine congrArg Except.ok (Bool.eq_iff_iff.2 (hiff.trans ?_))
  cases test <;> simp

/-- Tests of selected values are about sets. For every answer and candidates without an integer out
of range, some selected value is a candidate exactly if two of them have the same form; all
candidates are selected exactly if there is a selected value and every candidate has the form of
one; and that none is selected is the negation of the first. Other answers with the same selected
values and other lists of the same candidates lead to the same verdicts. With more candidates the
first test is the disjunction of the tests of both lists, and the others are the conjunctions. -/
theorem selections_as_sets (hanswer : ctx.resolve (.text v) = .ok answer)
    (h : Comparable answer candidates) :
    (∃ verdict, (selection .any v candidates).judge ctx = .ok verdict ∧
      (verdict = true ↔
        ∃ x ∈ answer.selections, ∃ l ∈ candidates, SameForm x (Literal.value l))) ∧
    (∃ verdict, (selection .all v candidates).judge ctx = .ok verdict ∧
      (verdict = true ↔ answer.selections ≠ [] ∧
        ∀ l ∈ candidates, ∃ x ∈ answer.selections, SameForm x (Literal.value l))) ∧
    (selection .none v candidates).judge ctx = (negated (selection .any v candidates)).judge ctx ∧
    (∀ test ctx' v' answer' candidates', ctx'.resolve (.text v') = .ok answer' →
      (∀ x, x ∈ answer'.selections ↔ x ∈ answer.selections) →
      (∀ l, l ∈ candidates' ↔ l ∈ candidates) →
      (selection test v' candidates').judge ctx' = (selection test v candidates).judge ctx) ∧
    ∀ more, (∀ l ∈ more, ¬OutOfRange (Literal.value l)) →
      (selection .any v (candidates ++ more)).judge ctx =
        (joined .or [selection .any v candidates, selection .any v more]).judge ctx ∧
      (selection .all v (candidates ++ more)).judge ctx =
        (joined .and [selection .all v candidates, selection .all v more]).judge ctx ∧
      (selection .none v (candidates ++ more)).judge ctx =
        (joined .and [selection .none v candidates, selection .none v more]).judge ctx := by
  have hverdict (test : SelectionTest) := testSelection_eq_ok test h
  simp only [← judge_selection hanswer] at hverdict
  refine ⟨hverdict .any, hverdict .all, ?_, ?_, fun more hmore => ?_⟩
  · obtain ⟨verdict, hnone, hiff⟩ := hverdict .none
    obtain ⟨verdict', hany, hiff'⟩ := hverdict .any
    have hnegated : verdict = !verdict' := by
      rw [Bool.eq_iff_iff, hiff, Bool.not_eq_true', ← Bool.not_eq_true, hiff']
      rfl
    rw [hnone, judge, hany, hnegated]
    rfl
  · intro test ctx' v' answer' candidates' hanswer' hselected hcandidates
    rw [judge_selection hanswer', judge_selection hanswer,
      testSelection_congr test hselected hcandidates]
  · have hjoined := judge_append hanswer h hmore
    exact ⟨hjoined .any, hjoined .all, hjoined .none⟩

/-- Two numbers, one of them as a text, and a brand are selected, the brand twice. Candidates may be
repeated, and the test of three candidates is that of two and of the third. -/
theorem selections_as_sets_brandTracker :
    let answer : Value := .list [.text "nike", .text "1", .int 2, .text "nike"]
    let ctx : Context :=
      ⟨.ofList [(.text "q_aware", answer)], ∅, Sample.BrandTracker.questions⟩
    let candidates : List Literal := [.int 1, .text "2"]
    (ctx.resolve (.text "AWARE") = .ok answer ∧ Comparable answer candidates) ∧
      (selection .all "AWARE" candidates).judge ctx = .ok true ∧
      (selection .all "AWARE" [.text "2", .int 1, .text "2"]).judge ctx = .ok true ∧
      (selection .all "AWARE" (candidates ++ [.text "puma"])).judge ctx =
        (joined .and [selection .all "AWARE" candidates,
          selection .all "AWARE" [.text "puma"]]).judge ctx := by
  intro answer ctx candidates
  have hanswer : ctx.resolve (.text "AWARE") = .ok answer := rfl
  have hcomparable : Comparable answer candidates :=
    ⟨by decide +kernel, by decide +kernel⟩
  obtain ⟨-, ⟨verdict, hall, hiff⟩, -, hsame, hmore⟩ := selections_as_sets hanswer hcomparable
  have hverdict : verdict = true := hiff.2 ⟨nofun, by decide +kernel⟩
  rw [hverdict] at hall
  refine ⟨⟨hanswer, hcomparable⟩, hall, ?_, (hmore [.text "puma"] (by decide)).2.1⟩
  rw [← hall]
  refine hsame .all ctx "AWARE" answer _ hanswer (fun _ => Iff.rfl) fun l => ?_
  simp only [candidates, List.mem_cons, List.not_mem_nil, or_false]
  exact ⟨fun h => h.elim .inr fun h => h, fun h => h.elim (fun h => .inr (.inl h)) .inl⟩

end Questionnaire.Condition
