import Questionnaire.Proofs.Page.Completeness
import Questionnaire.Proofs.Route.Firing
import Questionnaire.Proofs.Sorted

/-!
# What the filters carry

The three filters of carried choices split one list. A source offers the choices whose value has a
text that no own choice of the question has (`Carried.offered`). In the order of their indexes,
those that a filter lets through are numbered on from the greatest own index
(`Carried.carriedUnder_eq_renumbered`): `all` carries every one of them, `selected` those with a
selected value, `unselected` the others. `Carried.carriedUnder_splits` says so for every question
whose choices are numbered by integers, and every answer.
-/

namespace Questionnaire.Carried

variable {q : Question} {survey : Survey} {responses : Register Value}

/-! ## What a question carries from -/

/-- The question that a question carries choices from. -/
def source? (q : Question) (survey : Survey) : Option Question :=
  if q.carryFrom.isTruthy then survey.question? q.carryFrom else none

/-- The choices of the source whose value has no text of a value that the question itself offers. -/
def offered (q : Question) (survey : Survey) : List Choice :=
  (((source? q survey).map Question.choices).getD []).filter fun c =>
    !(q.choices.map valueText).contains (valueText c)

/-- The answer given to the source. -/
def sourceAnswer (q : Question) (survey : Survey) (responses : Register Value) : Value :=
  ((source? q survey).bind fun source => responses.get? source.id).getD .null

/-- Whether the value of a choice was selected at the source. -/
def isSelected (q : Question) (survey : Survey) (responses : Register Value) (c : Choice) : Bool :=
  (selectedTexts (sourceAnswer q survey responses)).contains (valueText c)

/-- What is carried into a question if it has a certain filter. -/
def carriedUnder (q : Question) (survey : Survey) (responses : Register Value)
    (filter : CarryFilter) : List Choice :=
  (carriedChoices { q with carryFilter := filter } survey responses).1

/-- The source of a question has a text for its id, and integers number the choices of both. -/
structure Numbered (q : Question) (survey : Survey) : Prop where
  carryFrom : q.carryFrom = .null ∨ ∃ id, q.carryFrom = .text id
  own : ∀ c ∈ q.choices, ∃ i, c.index = .int i
  source : ∀ source, source? q survey = some source → ∀ c ∈ source.choices, ∃ i, c.index = .int i

/-- The least integer above the indexes of some choices, counted from zero if there are none. -/
structure IsNext (own : List Choice) (first : Int) : Prop where
  empty : own = [] → first = 0
  above : ∀ c ∈ own, ∀ i, c.index = .int i → i < first
  attained : own ≠ [] → ∃ c ∈ own, c.index = .int (first - 1)

/-! ## Numbers for carried choices -/

/-- Choices as they are carried: numbered from `first` on, and under ids of their own. All else is
theirs. -/
def numberedFrom (first : Int) (l : List Choice) : List Choice :=
  l.mapIdx fun n c => { c with id := carriedId c.id, index := .int (first + n) }

theorem exists_greatest : ∀ (i : Int) (own : List Choice),
    (∀ c ∈ own, ∃ j, c.index = .int j) →
      ∃ m, greatest (.int i) (own.map Choice.index) = .int m ∧ i ≤ m ∧
        (∀ c ∈ own, ∀ j, c.index = .int j → j ≤ m) ∧
        (m = i ∨ ∃ c ∈ own, c.index = .int m)
  | i, [], _ => ⟨i, rfl, le_refl i, fun _ h => (nomatch h), .inl rfl⟩
  | i, c :: own, h => by
    obtain ⟨j, hj⟩ := h c (.head _)
    obtain ⟨m, hm, hle, habove, hattained⟩ :=
      exists_greatest (max i j) own fun c hc => h c (.tail _ hc)
    have hstep : greatest (.int i) ((c :: own).map Choice.index) =
        greatest (.int (max i j)) (own.map Choice.index) := by
      rw [List.map_cons, greatest, List.foldl_cons, hj, Value.less_int, greatest]
      rcases lt_or_ge i j with hij | hij
      · rw [decide_eq_true hij, if_pos rfl, max_eq_right hij.le]
      · rw [decide_eq_false hij.not_gt, if_neg Bool.false_ne_true, max_eq_left hij]
    refine ⟨m, hstep.trans hm, (le_max_left i j).trans hle, ?_, ?_⟩
    · intro c' hc' k hk
      rcases List.mem_cons.1 hc' with rfl | hc'
      · cases hj.symm.trans hk
        exact (le_max_right i j).trans hle
      · exact habove c' hc' k hk
    · rcases hattained with rfl | ⟨c', hc', hindex⟩
      · rcases le_total j i with hji | hij
        · exact .inl (max_eq_left hji)
        · exact .inr ⟨c, .head _, by rw [max_eq_right hij, hj]⟩
      · exact .inr ⟨c', .tail _ hc', hindex⟩

theorem exists_firstIndex {own : List Choice} (h : ∀ c ∈ own, ∃ i, c.index = .int i) :
    ∃ first, firstIndex own = .int first ∧ IsNext own first := by
  cases own with
  | nil => exact ⟨0, rfl, fun _ => rfl, fun _ h => (nomatch h), fun h => absurd rfl h⟩
  | cons c own =>
    obtain ⟨i, hi⟩ := h c (.head _)
    obtain ⟨m, hm, hle, habove, hattained⟩ :=
      exists_greatest i own fun c hc => h c (.tail _ hc)
    refine ⟨m + 1, ?_, fun h => (nomatch h), ?_, fun _ => ?_⟩
    · simp only [firstIndex, List.map_cons, hi, hm, Value.shifted]
    · intro c' hc' j hj
      rcases List.mem_cons.1 hc' with rfl | hc'
      · cases hi.symm.trans hj
        omega
      · have := habove c' hc' j hj
        omega
    · rw [Int.add_sub_cancel]
      rcases hattained with rfl | ⟨c', hc', hindex⟩
      · exact ⟨c, .head _, hi⟩
      · exact ⟨c', .tail _ hc', hindex⟩

theorem renumbered_eq_mapIdx (first : Int) : ∀ (n : Nat) (l : List Choice),
    renumbered (.int first) n l =
      l.mapIdx fun k c => { c with id := carriedId c.id, index := .int (first + (n + k : Nat)) }
  | _, [] => rfl
  | n, c :: l => by
    rw [renumbered, List.mapIdx_cons, renumbered_eq_mapIdx first (n + 1) l]
    simp only [Value.shifted, Nat.add_zero, Nat.add_right_comm, Nat.add_assoc]

theorem numberedFrom_eq (first : Int) (l : List Choice) :
    numberedFrom first l = renumbered (.int first) 0 l := by
  rw [renumbered_eq_mapIdx]
  simp only [Nat.zero_add]
  rfl

/-- A choice keeps its value when it is carried. -/
theorem ids_filter_renumbered (v : Value) (test : String → Bool) : ∀ (n : Nat) (l : List Choice),
    ((renumbered v n l).filter fun c => test (valueText c)).map Choice.id =
      (l.filter fun c => test (valueText c)).map fun c => carriedId c.id
  | _, [] => rfl
  | n, c :: l => by
    rw [renumbered, List.filter_cons, List.filter_cons]
    change List.map _ (if test (valueText c) = true then _ else _) = _
    split
    · rw [List.map_cons, List.map_cons, ids_filter_renumbered v test (n + 1) l]
    · exact ids_filter_renumbered v test (n + 1) l

theorem valueText_of_mem_renumbered {v : Value} {c : Choice} : ∀ {n : Nat} {l : List Choice},
    c ∈ renumbered v n l → ∃ o ∈ l, valueText c = valueText o
  | _, [], h => nomatch h
  | n, o :: l, h => by
    rcases List.mem_cons.1 h with rfl | h
    · exact ⟨o, .head _, rfl⟩
    · obtain ⟨o', ho', heq⟩ := valueText_of_mem_renumbered h
      exact ⟨o', .tail _ ho', heq⟩

/-! ## Carrying -/

theorem carriedUnder_eq_of_source (filter : CarryFilter) :
    carriedUnder q survey responses filter =
      match source? q survey with
      | none => []
      | some source =>
        carriedFrom q.choices filter source ((responses.get? source.id).getD .null) := by
  unfold carriedUnder carriedChoices source?
  cases q.carryFrom.isTruthy with
  | false => rfl
  | true => cases survey.question? q.carryFrom <;> rfl

theorem isPlaced_of_index_eq_int {l : List Choice} (h : ∀ c ∈ l, ∃ i, c.index = .int i) :
    (l.all fun c => c.index.isPlaced) = true :=
  List.all_eq_true.2 fun c hc => by
    obtain ⟨i, hi⟩ := h c hc
    rw [hi]
    rfl

theorem exists_index_of_mem_offered (h : Numbered q survey) :
    ∀ c ∈ offered q survey, ∃ i, c.index = .int i := by
  intro c hc
  have hmem := (List.mem_filter.1 hc).1
  cases hsource : source? q survey with
  | none =>
    rw [hsource] at hmem
    cases hmem
  | some source =>
    rw [hsource] at hmem
    exact h.source source hsource c hmem

/-- What a filter carries is what it lets through of the offered choices in order: own values may be
dropped, and what is left sorted, before the filter is applied. -/
theorem carriedUnder_eq_renumbered (h : Numbered q survey) (responses : Register Value)
    (filter : CarryFilter) :
    carriedUnder q survey responses filter =
      renumbered (firstIndex q.choices) 0
        ((sortedBy Choice.index (offered q survey)).filter fun c => passes filter
          (selectedTexts (sourceAnswer q survey responses)) (valueText c)) := by
  rw [carriedUnder_eq_of_source,
    filter_sortedBy_comm (isPlaced_of_index_eq_int (exists_index_of_mem_offered h))]
  cases hsource : source? q survey with
  | none =>
    have hnothing : offered q survey = [] := by
      rw [offered, hsource]
      rfl
    rw [hnothing, List.filter_nil, (sortedBy_perm Choice.index []).eq_nil]
    rfl
  | some source =>
    have hoffered : offered q survey = source.choices.filter fun c =>
        !(q.choices.map valueText).contains (valueText c) := by
      rw [offered, hsource]
      rfl
    have hanswer : sourceAnswer q survey responses = (responses.get? source.id).getD .null := by
      rw [sourceAnswer, hsource]
      rfl
    have hpicked : ∀ c ∈ picked filter source ((responses.get? source.id).getD .null),
        ∃ i, c.index = .int i := fun c hc =>
      h.source source hsource c (List.mem_filter.1 hc).1
    simp only [carriedFrom]
    rw [filter_sortedBy_comm (isPlaced_of_index_eq_int hpicked), picked, List.filter_filter,
      hoffered, List.filter_filter, hanswer]
    simp only [Bool.and_comm]

theorem demandComparable_indexes {l : List Choice} (h : ∀ c ∈ l, ∃ i, c.index = .int i) :
    demandComparable (l.map Choice.index) = .ok () :=
  Jump.demandComparable_of_isSized <| List.forall_mem_map.2 fun c hc => by
    obtain ⟨i, hi⟩ := h c hc
    rw [hi]
    rfl

/-- Choices can be carried into a question whose choices are numbered. -/
theorem demandCarriable_of_numbered (h : Numbered q survey) (responses : Register Value) :
    demandCarriable q survey responses = .ok () := by
  cases hcarries : q.carryFrom.isTruthy with
  | false => simp [demandCarriable, hcarries]
  | true =>
    cases hfound : survey.question? q.carryFrom with
    | none => simp [demandCarriable, hcarries, hfound]
    | some source =>
      obtain ⟨id, hid⟩ : ∃ id, q.carryFrom = .text id := by
        rcases h.carryFrom with hnull | htext
        · rw [hnull] at hcarries
          cases hcarries
        · exact htext
      have hequal : source.id.equal (.text id) = true := by
        rw [hid, Survey.question?] at hfound
        exact List.find?_some (p := fun p : Question => p.id.equal (.text id)) hfound
      have hsource : source.id = .text id := (Value.equal_iff_of_isText rfl).1 hequal
      have hkey : demandKeys [source.id] = .ok () :=
        demandKeys_eq_ok_iff.2 (List.forall_mem_singleton.2 (hsource ▸ rfl))
      have hown : (q.choices.all fun c => c.index.isNumeric) = true :=
        List.all_eq_true.2 fun c hc => by
          obtain ⟨i, hi⟩ := h.own c hc
          rw [hi]
          rfl
      have hpicked := demandComparable_indexes fun c (hc : c ∈ picked q.carryFilter source
        ((responses.get? source.id).getD .null)) =>
          h.source source (by rw [source?, if_pos hcarries, hfound]) c (List.mem_filter.1 hc).1
      simp only [demandCarriable, hcarries, hfound, hkey, hown, Bool.not_true, Bool.false_eq_true,
        if_false, if_true, hpicked]
      rfl

/-- Listing the choices of a question succeeds, and gives the own ones in order and then what its
filter carries. -/
theorem choicesOf_perform (h : Numbered q survey) (d : Desk) :
    ((choicesOf q survey).perform d).1 = .ok (sortedBy Choice.index q.choices ++
      carriedUnder q survey d.session.responses q.carryFilter) := by
  have hread := (reads_choicesOf q survey d).1
  simp only [demandComparable_indexes h.own, demandCarriable_of_numbered h] at hread
  exact hread

/-- **The filters split what `all` carries.** The choices that the source offers beyond the own
values are carried in order, whatever the answer: all of them, those with a selected value, or the
others. They are numbered on from the own choices and stand behind them. -/
theorem carriedUnder_splits (h : Numbered q survey) (responses : Register Value) :
    ∃ (first : Int) (own origins : List Choice),
      IsNext q.choices first ∧ StablySorted Choice.index q.choices own ∧
      StablySorted Choice.index (offered q survey) origins ∧
      carriedUnder q survey responses .all = numberedFrom first origins ∧
      carriedUnder q survey responses .selected =
        numberedFrom first (origins.filter fun c => isSelected q survey responses c) ∧
      carriedUnder q survey responses .unselected =
        numberedFrom first (origins.filter fun c => !isSelected q survey responses c) ∧
      (carriedUnder q survey responses .selected).map Choice.id =
        ((carriedUnder q survey responses .all).filter fun c =>
          isSelected q survey responses c).map Choice.id ∧
      (carriedUnder q survey responses .unselected).map Choice.id =
        ((carriedUnder q survey responses .all).filter fun c =>
          !isSelected q survey responses c).map Choice.id ∧
      (∀ filter, ∀ c ∈ carriedUnder q survey responses filter,
        valueText c ∉ q.choices.map valueText) ∧
      ∀ d : Desk, d.session.responses = responses → ((choicesOf q survey).perform d).1 =
        .ok (own ++ carriedUnder q survey responses q.carryFilter) := by
  obtain ⟨first, hfirst, hnext⟩ := exists_firstIndex h.own
  let origins := sortedBy Choice.index (offered q survey)
  have hcarried (filter : CarryFilter) : carriedUnder q survey responses filter =
      renumbered (.int first) 0 (origins.filter fun c => passes filter
        (selectedTexts (sourceAnswer q survey responses)) (valueText c)) :=
    hfirst ▸ carriedUnder_eq_renumbered h responses filter
  have hall : carriedUnder q survey responses .all = renumbered (.int first) 0 origins :=
    (hcarried .all).trans (congrArg _ (List.filter_eq_self.2 fun _ _ => rfl))
  refine ⟨first, sortedBy Choice.index q.choices, origins, hnext, stablySorted_sortedBy h.own,
    stablySorted_sortedBy (exists_index_of_mem_offered h), hall.trans (numberedFrom_eq _ _).symm,
    (hcarried .selected).trans (numberedFrom_eq _ _).symm,
    (hcarried .unselected).trans (numberedFrom_eq _ _).symm, ?_, ?_, ?_, ?_⟩
  · rw [hcarried, hall, Renderer.ids_renumbered]
    exact (ids_filter_renumbered _ _ _ _).symm
  · rw [hcarried, hall, Renderer.ids_renumbered]
    exact (ids_filter_renumbered _ (fun text =>
      !(selectedTexts (sourceAnswer q survey responses)).contains text) _ _).symm
  · intro filter c hc
    rw [hcarried] at hc
    obtain ⟨o, ho, htext⟩ := valueText_of_mem_renumbered hc
    have hoffered := (sortedBy_perm Choice.index _).mem_iff.1 (List.mem_filter.1 ho).1
    rw [htext]
    simpa using (List.mem_filter.1 hoffered).2
  · rintro d rfl
    exact choicesOf_perform h d

end Questionnaire.Carried

namespace Questionnaire

/-! ## Brands that were seen -/

namespace Sample.Carrying

/-- A choice of the first question. -/
def brand (id : String) (value : Value) (index : Int) : Choice :=
  { id := .text id, value := value, label := .text id, index := .int index, visibleIf := none,
    groupKey := .null, weight := .null }

/-- A question about brands that were seen, which are not authored in the order of their indexes.
The name of one is a number. -/
def seen : Question :=
  { known with choices := [brand "a" (.text "puma") 1, brand "b" (.text "nike") 0,
    brand "c" (.int 7) 0, brand "d" (.text "none") 2] }

/-- A question that offers what was seen, behind what it offers itself. -/
def remembered : Question := { bought with choices := [brand "none" (.text "none") 4] }

/-- The survey of the two questions. -/
def brands : Survey := onePage [] [seen, remembered]

/-- Two brands were seen. -/
def answers : Register Value := (desk ["7", "puma"]).session.responses

theorem numbered : Carried.Numbered remembered brands where
  carryFrom := .inr ⟨_, rfl⟩
  own := List.forall_mem_singleton.2 ⟨4, rfl⟩
  source := by
    rintro source ⟨⟩
    exact List.forall_mem_cons.2 ⟨⟨1, rfl⟩, List.forall_mem_cons.2 ⟨⟨0, rfl⟩,
      List.forall_mem_cons.2 ⟨⟨0, rfl⟩, List.forall_mem_singleton.2 ⟨2, rfl⟩⟩⟩⟩

/-- The own value is dropped, and what is left sorted. -/
theorem inOrder : sortedBy Choice.index (Carried.offered remembered brands) =
    [brand "b" (.text "nike") 0, brand "c" (.int 7) 0, brand "a" (.text "puma") 1] := by
  have hoffered : Carried.offered remembered brands =
      [brand "a" (.text "puma") 1, brand "b" (.text "nike") 0, brand "c" (.int 7) 0] := by
    decide +kernel
  rw [hoffered, sortedBy_eq_mergeSort (by decide)]
  simp [List.mergeSort, List.MergeSort.Internal.splitInTwo, brand, Value.place_int_le_iff]

theorem carried_all : Carried.carriedUnder remembered brands answers .all =
    Carried.numberedFrom 5
      [brand "b" (.text "nike") 0, brand "c" (.int 7) 0, brand "a" (.text "puma") 1] := by
  rw [Carried.carriedUnder_eq_renumbered numbered, inOrder]
  decide +kernel

end Sample.Carrying

open Sample.Carrying in
/-- Of three brands two were seen, in another order than that in which they are offered. -/
theorem Carried.carriedUnder_splits_brands :
    (carriedUnder remembered brands answers .selected).map Choice.id =
      [.text "cf_c", .text "cf_a"] ∧
    (carriedUnder remembered brands answers .unselected).map Choice.id = [.text "cf_b"] ∧
    ∃ own, ((choicesOf remembered brands).perform (desk ["7", "puma"])).1 =
      .ok (own ++ carriedUnder remembered brands answers .selected) := by
  obtain ⟨first, own, origins, -, -, -, -, -, -, hselected, hothers, -, hchoices⟩ :=
    carriedUnder_splits numbered answers
  rw [hselected, hothers, carried_all]
  exact ⟨by decide +kernel, by decide +kernel, own, hchoices _ rfl⟩

end Questionnaire
