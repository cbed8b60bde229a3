import Questionnaire.Proofs.Route.Fitting
import Questionnaire.Proofs.Route.Selections
import Questionnaire.Sample.BrandTracker

/-!
# Answers that count as unchanged

A new answer to the source question of a battery leaves the battery's plan in place unless it counts
as changed. Whether it does is told by the texts of the selected values (`answerChanged`), while a
choice is selected by a value that is equal to its own. The two coincide where selected values that
read the same are the same (`ReadApart`), and there an answer that counts as unchanged selects the
same choices, whatever the order, the repetitions and the kinds of the values
(`selectedChoices_perm_of_unchanged`). So the source items of the battery are the same up to their
order, a plan that fitted still fits, and an item of a plan is stale now exactly if it was before
(`Planning.unchanged_answer_keeps_items`).

A number and the text of its digits read the same and are not equal, and `ReadApart` cannot be left
out (`Planning.unchanged_answer_selects_other`).
-/

namespace Questionnaire

variable {before after : Value}

/-- Values that two answers select agree if they read the same. -/
def ReadApart (before after : Value) : Prop :=
  ∀ v ∈ before.selections, ∀ w ∈ after.selections, v.display = w.display → v.agrees w = true

instance (before after : Value) : Decidable (ReadApart before after) := by
  unfold ReadApart; infer_instance

theorem ReadApart.symm (h : ReadApart before after) : ReadApart after before := by
  intro v hv w hw hread
  rw [Value.agrees_comm]
  exact h w hw v hv hread.symm

/-- Texts are sorted alike exactly if they are the same texts, each as often. -/
theorem sortedTexts_eq_iff {l m : List String} : sortedTexts l = sortedTexts m ↔ l.Perm m := by
  refine ⟨fun h => (sortedTexts_perm l).symm.trans (h ▸ sortedTexts_perm m), fun h => ?_⟩
  have hsorted (l : List String) : (sortedTexts l).Pairwise (· ≤ ·) := by
    refine (List.pairwise_mergeSort (fun a b c hab hbc => ?_) (fun a b => ?_) l).imp
      of_decide_eq_true
    · exact decide_eq_true (String.le_trans (of_decide_eq_true hab) (of_decide_eq_true hbc))
    · simpa using String.le_total a b
  refine List.Perm.eq_of_pairwise (fun a b _ _ => String.le_antisymm) (hsorted l) (hsorted m) ?_
  exact (sortedTexts_perm l).trans (h.trans (sortedTexts_perm m).symm)

/-- Of two lists one counts as unchanged exactly if their values read the same, each as often. -/
theorem answerChanged_list {xs ys : List Value} :
    answerChanged (.list xs) (.list ys) = false ↔
      (xs.map Value.display).Perm (ys.map Value.display) := by
  simp only [answerChanged, bne_eq_false_iff_eq, sortedTexts_eq_iff]

theorem answerChanged_comm (before after : Value) :
    answerChanged before after = answerChanged after before := by
  unfold answerChanged
  split
  · exact bne_comm
  · next hlist =>
    split
    · next xs ys => exact absurd rfl (hlist ys xs rfl)
    · rw [Value.equal_comm]

theorem Value.eq_null_of_canonical {v : Value} (h : v.canonical = .null) : v = .null := by
  cases v with
  | null => rfl
  | float x =>
    simp only [canonical] at h
    split at h <;> cases h
  | _ => simp [canonical] at h

theorem Value.eq_list_of_canonical {v : Value} {items : List Value}
    (h : v.canonical = .list items) : ∃ xs, v = .list xs := by
  cases v with
  | list xs => exact ⟨xs, rfl⟩
  | float x =>
    simp only [canonical] at h
    split at h <;> cases h
  | _ => simp [canonical] at h

/-- What is neither nothing nor a list selects itself. -/
theorem Value.selections_eq_singleton {v : Value} (hnull : v ≠ .null) (hlist : ∀ xs, v ≠ .list xs) :
    v.selections = [v] := by
  cases v with
  | null => exact absurd rfl hnull
  | list xs => exact absurd rfl (hlist xs)
  | _ => rfl

/-- Answers in agreement of which not both are lists select values in agreement. -/
theorem Value.selections_of_agrees (h : before.agrees after = true)
    (hlist : ∀ xs ys, before = .list xs → after = .list ys → False) :
    ∀ v ∈ before.selections, ∃ w ∈ after.selections, v.agrees w = true := by
  have hcanon := agrees_iff.1 h
  have hbefore : ∀ xs, before ≠ .list xs := by
    rintro xs rfl
    obtain ⟨ys, rfl⟩ := eq_list_of_canonical (v := after) (by rw [← hcanon, canonical])
    exact hlist xs ys rfl rfl
  have hafter : ∀ ys, after ≠ .list ys := by
    rintro ys rfl
    obtain ⟨xs, rfl⟩ := eq_list_of_canonical (v := before) (by rw [hcanon, canonical])
    exact hbefore xs rfl
  intro v hv
  by_cases hnull : before = .null
  · subst hnull
    cases hv
  · have hother : after ≠ .null := by
      rintro rfl
      exact hnull (eq_null_of_canonical (by simpa [canonical] using hcanon))
    rw [selections_eq_singleton hnull hbefore, List.mem_singleton] at hv
    rw [selections_eq_singleton hother hafter]
    exact ⟨after, .head _, hv ▸ h⟩

/-- Whatever an answer selected agrees with something that an unchanged answer selects. -/
theorem selections_of_unchanged (hread : ReadApart before after)
    (h : answerChanged before after = false) :
    ∀ v ∈ before.selections, ∃ w ∈ after.selections, v.agrees w = true := by
  by_cases hlist : ∀ xs ys, before = .list xs → after = .list ys → False
  · have hagree : before.agrees after = true := by
      simp only [answerChanged] at h
      exact Value.agrees_of_equal (by simpa using h)
    exact Value.selections_of_agrees hagree hlist
  · push Not at hlist
    obtain ⟨xs, ys, rfl, rfl, -⟩ := hlist
    intro v hv
    have hread' := (answerChanged_list.1 h).subset (List.mem_map_of_mem hv)
    obtain ⟨w, hw, hdisplay⟩ := List.mem_map.1 hread'
    exact ⟨w, hw, hread v hv w hw hdisplay.symm⟩

namespace Planning

variable {b : Battery} {survey : Survey} {q : Question} {l m : List Value} {v w : Value}

theorem choiceWithValue?_congr (q : Question) (h : v.agrees w = true) :
    q.choiceWithValue? v = q.choiceWithValue? w := by
  simp only [Question.choiceWithValue?, Value.equal_congr h]

/-- Values in agreement with others select what those select. -/
theorem mem_selectedChoices_of_agrees (h : ∀ v ∈ l, ∃ w ∈ m, v.agrees w = true) {c : Choice}
    (hc : c ∈ selectedChoices q [] l) : c ∈ selectedChoices q [] m := by
  obtain ⟨hfresh, v, hv, hfound⟩ := mem_selectedChoices.1 hc
  obtain ⟨w, hw, hagree⟩ := h v hv
  exact mem_selectedChoices.2 ⟨hfresh, w, hw, choiceWithValue?_congr q hagree ▸ hfound⟩

/-- An answer that counts as unchanged selects the same choices, in whatever order. -/
theorem selectedChoices_perm_of_unchanged (hread : ReadApart before after)
    (h : answerChanged before after = false) :
    (selectedChoices q [] before.selections).Perm (selectedChoices q [] after.selections) := by
  have hback : answerChanged after before = false := by rw [answerChanged_comm, h]
  refine (List.perm_ext_iff_of_nodup (nodup_selectedChoices _ _) (nodup_selectedChoices _ _)).2
    fun c => ⟨?_, ?_⟩
  · exact mem_selectedChoices_of_agrees (selections_of_unchanged hread h)
  · exact mem_selectedChoices_of_agrees (selections_of_unchanged hread.symm hback)

/-! ## The battery under an unchanged answer -/

variable {responses : Register Value}

/-- What is selected under an answer is what the answer selects. -/
theorem selectedValues_set (q : Question) (responses : Register Value) (answer : Value) :
    selectedValues q (responses.set q.id answer) = answer.selections := by
  simp [selectedValues, Register.get?_set, Value.agrees_self]

theorem sourceItems_perm_of_unchanged (hq : sourceQuestion? b survey = some q)
    (hread : ReadApart before after) (h : answerChanged before after = false) :
    (sourceItems b survey (responses.set q.id before)).Perm
      (sourceItems b survey (responses.set q.id after)) := by
  unfold sourceItems
  cases b.source with
  | dataset => exact .refl _
  | answer =>
    simp only [hq, selectedValues_set]
    exact (selectedChoices_perm_of_unchanged hread h).map choiceItem

/-- Of source items in another order, the same plans fit. -/
theorem fits_of_perm {responses' : Register Value} {p : LoopPlan}
    (hperm : (sourceItems b survey responses).Perm (sourceItems b survey responses'))
    (h : b.Fits survey responses p) : b.Fits survey responses' p where
  batteryId := h.batteryId
  cursor := h.cursor
  items := h.items.trans hperm.subperm
  size := by rw [h.size, hperm.length_eq]

/-- The order of the live keys does not matter to whether an item is stale. -/
theorem staleKey_perm {live live' : List Id} (hperm : live.Perm live') (p : LoopPlan) (c : Value) :
    p.staleKey live c = p.staleKey live' c := by
  have hamong : ∀ k : Id, k.isAmong live = k.isAmong live' := fun k => hperm.any_eq
  simp only [LoopPlan.staleKey, hamong]

/-- An answer that counts as unchanged leaves the source items of a battery as they were, up to
their order; so they have the same keys, what fitted the battery still fits it, and no item of a
plan is stale that was not stale before. -/
theorem unchanged_answer_keeps_items (responses : Register Value)
    (hq : sourceQuestion? b survey = some q) (hread : ReadApart before after)
    (h : answerChanged before after = false) :
    let old := sourceItems b survey (responses.set q.id before)
    let new := sourceItems b survey (responses.set q.id after)
    old.Perm new ∧
      (∀ key, key ∈ old.map LoopItem.key ↔ key ∈ new.map LoopItem.key) ∧
      (∀ p, b.Fits survey (responses.set q.id before) p ↔
        b.Fits survey (responses.set q.id after) p) ∧
      ∀ (p : LoopPlan) (c : Value),
        p.staleKey (old.map LoopItem.key) c = p.staleKey (new.map LoopItem.key) c := by
  intro old new
  have hperm : old.Perm new := sourceItems_perm_of_unchanged hq hread h
  have hkeys := hperm.map LoopItem.key
  refine ⟨hperm, fun key => hkeys.mem_iff, fun p => ⟨?_, ?_⟩, staleKey_perm hkeys⟩
  · exact fits_of_perm hperm
  · exact fits_of_perm hperm.symm

end Planning

/-! ## Choices numbered by texts -/

namespace Sample.Numbered

/-- The question for the brands, its choices numbered. -/
def question : Question :=
  { BrandTracker.plainQuestion "q_aware" "p_screen" "AWARE" .multipleChoice
      "Which of these brands have you heard of?" with
    choices := BrandTracker.choices "aware" [("1", "Nike"), ("2", "Adidas")] }

/-- The brand tracker with numbered brands. -/
def survey : Survey := { BrandTracker.survey .null with questions := [question] }

/-- The keys of the source items of the battery over brands under an answer. -/
def keysUnder (answer : Value) : List Id :=
  (Planning.sourceItems BrandTracker.brands survey
    ((∅ : Register Value).set question.id answer)).map LoopItem.key

end Sample.Numbered

open Sample Sample.Numbered

/-- Two brands in the other order. -/
theorem Planning.unchanged_answer_keeps_items_swapped :
    let before := Value.list [.text "1", .text "2"]
    let after := Value.list [.text "2", .text "1"]
    answerChanged before after = false ∧ ReadApart before after ∧
      ∀ key, key ∈ keysUnder before ↔ key ∈ keysUnder after := by
  intro before after
  have hsource : sourceQuestion? BrandTracker.brands Numbered.survey = some question := by decide
  have hread : ReadApart before after := by decide +kernel
  have hsame : answerChanged before after = false := answerChanged_list.2 (.swap _ _ _)
  exact ⟨hsame, hread, (unchanged_answer_keeps_items ∅ hsource hread hsame).2.1⟩

/-- A number counts as unchanged against the text of its digits, and selects nothing where the text
selects a choice. -/
theorem Planning.unchanged_answer_selects_other :
    sourceQuestion? BrandTracker.brands Numbered.survey = some question ∧
      answerChanged (.list [.int 1]) (.list [.text "1"]) = false ∧
      keysUnder (.list [.int 1]) = [] ∧ keysUnder (.list [.text "1"]) = [.text "1"] := by
  have hsame : answerChanged (.list [.int 1]) (.list [.text "1"]) = false :=
    answerChanged_list.2 (.of_eq (by decide +kernel))
  exact ⟨by decide, hsame, by decide +kernel, by decide +kernel⟩

end Questionnaire
