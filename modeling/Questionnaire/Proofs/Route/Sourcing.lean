import Questionnaire.Proofs.Route.Segments
import Questionnaire.Proofs.Route.Selections
import Questionnaire.Proofs.Sorted
import Questionnaire.Sample.BrandTracker

/-!
# Where items come from

The items of a battery come from an answer or from a dataset (`Battery.Sourced`). An answer gives an
item for each of its values that some choice of the source question has, in its own order and each
once (`Question.Selects`). A dataset gives an item for each active row, in the order of the sort
indexes.

If the parts that a battery takes its items from have the declared types (`Battery.Typed`), the
items can be listed and counted off, so planning does not fail: a battery with items has a new plan,
and only a battery without any has none (`Planning.newPlan_contains`).
-/

namespace Questionnaire

open Flow

/-! ## Batteries of the declared types -/

/-- A battery, and the survey in which it finds its items, with values of the declared types where
items are listed and counted off. -/
structure Battery.Typed (b : Battery) (survey : Survey) : Prop where
  questionId : ∀ q ∈ survey.questions, q.id.isText = true
  choiceValue : ∀ q ∈ survey.questions, ∀ c ∈ q.choices, c.value.isText = true
  maxItems : b.maxItems = .null ∨ ∃ n, b.maxItems = .int n
  rowIndex : ∀ r ∈ b.rows, ∃ i, r.sortIndex = .int i

variable {b : Battery} {survey : Survey} {responses : Register Value} {q : Question}

theorem Survey.Typed.battery (h : survey.Typed) (hb : b ∈ survey.batteries) : b.Typed survey where
  questionId := h.questionId
  choiceValue := h.choiceValue
  maxItems := h.maxItems b hb
  rowIndex := h.rowIndex b hb

theorem Planning.mem_of_sourceQuestion? (h : sourceQuestion? b survey = some q) :
    q ∈ survey.questions := by
  unfold sourceQuestion? at h
  split at h
  · exact List.mem_of_find?_eq_some h
  · cases h

namespace Battery.Typed

/-- The items of the battery can be listed. -/
theorem demandListable (h : b.Typed survey) (responses : Register Value) :
    Planning.demandListable b survey responses = .ok () := by
  unfold Planning.demandListable
  split
  · have hnumeric : ((b.rows.filter DatasetRow.isActive).map DatasetRow.sortIndex).all
        Value.isNumeric = true := by
      refine List.all_eq_true.2 fun v hv => ?_
      obtain ⟨r, hr, rfl⟩ := List.mem_map.1 hv
      obtain ⟨i, hi⟩ := h.rowIndex r (List.mem_filter.1 hr).1
      rw [hi]
      rfl
    simp [demandComparable, Value.areComparable, hnumeric]
  · split
    · rfl
    · next q hq =>
      have hmem := Planning.mem_of_sourceQuestion? hq
      have hqid : demandKeys [q.id] = .ok () := demandKeys_of_isText fun id hid =>
        List.mem_singleton.1 hid ▸ h.questionId q hmem
      rw [hqid]
      refine demandKeys_of_isText fun v hv => ?_
      obtain ⟨c, hc, rfl⟩ := List.mem_map.1 hv
      obtain ⟨w, -, hw⟩ := List.mem_filterMap.1 hc
      exact h.choiceValue q hmem c (List.mem_of_find?_eq_some hw)

/-- The battery has a limit or none. -/
theorem exists_limit (h : b.Typed survey) : ∃ limit, Planning.limit? b = .ok limit := by
  unfold Planning.limit?
  rcases h.maxItems with hmax | ⟨n, hmax⟩ <;> rw [hmax]
  · exact ⟨none, rfl⟩
  · exact ⟨_, rfl⟩

/-- Planning has a result: the plan that takes the first of the source items, or none if there are
no source items. -/
theorem yields_newPlan (h : b.Typed survey) (P : Session → Prop) :
    Yields P (Planning.newPlan b survey responses) fun o s => P s ∧
      match o with
      | none => Planning.sourceItems b survey responses = []
      | some p => b.Takes (Planning.sourceItems b survey responses) p ∧
          Planning.sourceItems b survey responses ≠ [] := by
  obtain ⟨limit, hlimit⟩ := h.exists_limit
  have hrest : ∀ items : List LoopItem, Yields P
      (do
        let items := Planning.limited (← ofResult (Planning.limit? b)) items
        log (.planned b.id items.length)
        pure (some (⟨b.id, items, .int 0⟩ : LoopPlan)))
      fun _ => P := fun items =>
    .bind_known (.ofOk hlimit) <| .bind .log fun _ => .pure fun _ hs => hs
  have hmade : Yields P (Planning.newPlan b survey responses) fun _ => P := by
    refine .bind .logAll fun _ => .bind_known (.ofOk (h.demandListable responses)) ?_
    refine .ite (fun _ => .bind .log fun _ => .pure fun _ hs => hs) fun _ => ?_
    refine .ite (fun _ => .bind .drawn hrest) fun _ => ?_
    exact .bind (Q := fun _ => P) (.pure fun _ hs => hs) hrest
  exact (hmade.and_ensures (Planning.newPlan_takes P)).mono (fun _ hs => hs) fun _ _ hs => hs.2

end Battery.Typed

/-! ## Items of an answer -/

/-- The items that values select from the choices of a question. Every value that some choice has is
the key of one item, in the order in which the values first occur, and other values count for
nothing. -/
structure Question.Selects (q : Question) (values : List Value) (items : List LoopItem) : Prop where
  keys : items.map LoopItem.key =
    (values.filter fun v => (q.choiceWithValue? v).isSome).eraseDups
  choice : ∀ item ∈ items, ∃ c, q.choiceWithValue? item.key = some c ∧ item.label = c.label ∧
    item.attributes = .ofTexts (Dict.ofList [("value", c.value), ("label", c.label)])

namespace Planning

/-- A choice whose value is a text is found by that text only. -/
theorem value_of_choiceWithValue? (h : ∀ c ∈ q.choices, c.value.isText = true) {v : Value}
    {c : Choice} (hc : q.choiceWithValue? v = some c) : c.value = v :=
  Value.eq_of_agrees (h c (List.mem_of_find?_eq_some hc))
    (Value.agrees_of_equal (List.find?_some (p := fun c : Choice => c.value.equal v) hc))

/-- The values of the selected choices. -/
theorem map_value_selectedChoices (h : ∀ c ∈ q.choices, c.value.isText = true) :
    ∀ values seen : List Value, (selectedChoices q seen values).map Choice.value =
      ((values.filter fun v => (q.choiceWithValue? v).isSome).filter
        fun v => decide (v ∉ seen)).eraseDups
  | [], seen => by simp [selectedChoices]
  | v :: r, seen => by
    have ih := map_value_selectedChoices h r
    rw [selectedChoices]
    cases hv : q.choiceWithValue? v with
    | none => simpa [hv] using ih seen
    | some c =>
      obtain rfl := value_of_choiceWithValue? h hv
      have htext := h c (List.mem_of_find?_eq_some hv)
      simp only [Value.isAmong_iff_mem_of_isText htext]
      by_cases hseen : c.value ∈ seen
      · simpa [hv, hseen] using ih seen
      · -- From here on the value counts as seen.
        have hrest := ih (c.value :: seen)
        rw [if_neg hseen, List.map_cons, hrest, List.filter_cons_of_pos (by simp [hv]),
          List.filter_cons_of_pos (by simpa using hseen), List.eraseDups_cons]
        simp only [List.filter_filter, List.mem_cons, not_or, Bool.decide_and]
        congr 2
        refine List.filter_congr fun w _ => ?_
        grind

/-- An answer gives the items that its values select. -/
theorem selects_selectedChoices (h : ∀ c ∈ q.choices, c.value.isText = true)
    (values : List Value) : q.Selects values ((selectedChoices q [] values).map choiceItem) := by
  have hkey : ∀ c ∈ selectedChoices q [] values, (choiceItem c).key = c.value ∧
      q.choiceWithValue? c.value = some c := by
    intro c hc
    obtain ⟨v, -, hv⟩ := (mem_selectedChoices.1 hc).2
    obtain rfl := value_of_choiceWithValue? h hv
    exact ⟨Value.text_display (h c (List.mem_of_find?_eq_some hv)), hv⟩
  refine ⟨?_, fun item hitem => ?_⟩
  · have hvalues : (selectedChoices q [] values).map (LoopItem.key ∘ choiceItem) =
        (selectedChoices q [] values).map Choice.value :=
      List.map_congr_left fun c hc => (hkey c hc).1
    rw [List.map_map, hvalues]
    simpa using map_value_selectedChoices h values []
  · obtain ⟨c, hc, rfl⟩ := List.mem_map.1 hitem
    exact ⟨c, by rw [(hkey c hc).1, (hkey c hc).2], rfl, rfl⟩

end Planning

/-! ## Items of a dataset -/

/-- The item of a dataset row. It is labelled by the label among the attributes if that is given,
and else by the key. -/
structure DatasetRow.Labels (row : DatasetRow) (item : LoopItem) : Prop where
  key : item.key = row.key
  attributes : item.attributes = row.attributes
  given : ∀ v, row.attributes.get? (.text "label") = some v → v.isTruthy = true →
    item.label = .text v.display
  missing : (∀ v, row.attributes.get? (.text "label") = some v → v.isTruthy = false) →
    item.label = .text row.key.display

theorem Planning.labels_rowItem (row : DatasetRow) : row.Labels (rowItem row) where
  key := rfl
  attributes := rfl
  given v hv htruthy := by simp [rowItem, hv, Option.filter, htruthy]
  missing hnone := by
    cases hlabel : row.attributes.get? (.text "label") with
    | none => simp [rowItem, hlabel]
    | some v => simp [rowItem, hlabel, Option.filter, hnone v hlabel]

/-! ## Items of a battery -/

/-- The items of a battery, as its source gives them: those that the values of an answer select, or
those of the active rows of the dataset in the order of their sort indexes. Without a source
question there are none. -/
structure Battery.Sourced (b : Battery) (survey : Survey) (responses : Register Value)
    (items : List LoopItem) : Prop where
  unresolved : b.source = .answer → Planning.sourceQuestion? b survey = none → items = []
  selected : ∀ q, b.source = .answer → Planning.sourceQuestion? b survey = some q →
    q.Selects (Planning.selectedValues q responses) items
  rows : b.source = .dataset → ∃ rows,
    StablySorted DatasetRow.sortIndex (b.rows.filter DatasetRow.isActive) rows ∧
    List.Forall₂ DatasetRow.Labels rows items

theorem Battery.Typed.sourced (h : b.Typed survey) (responses : Register Value) :
    b.Sourced survey responses (Planning.sourceItems b survey responses) where
  unresolved hanswer hnone := by simp [Planning.sourceItems, hanswer, hnone]
  selected q hanswer hq := by
    have hitems : Planning.sourceItems b survey responses =
        (Planning.selectedChoices q [] (Planning.selectedValues q responses)).map
          Planning.choiceItem := by simp [Planning.sourceItems, hanswer, hq]
    rw [hitems]
    exact Planning.selects_selectedChoices
      (h.choiceValue q (Planning.mem_of_sourceQuestion? hq)) _
  rows hdataset := by
    refine ⟨_, stablySorted_sortedBy fun r hr => h.rowIndex r (List.mem_filter.1 hr).1, ?_⟩
    have hitems : Planning.sourceItems b survey responses =
        (sortedBy DatasetRow.sortIndex (b.rows.filter DatasetRow.isActive)).map
          Planning.rowItem := by simp [Planning.sourceItems, hdataset]
    rw [hitems]
    exact List.forall₂_map_right_iff.2 (List.forall₂_same.2 fun r _ => Planning.labels_rowItem r)

/-! ## New plans -/

/-- What a plan contains. Take a battery and a survey with values of the declared types where items
are listed and counted off, any answers, and any desk to plan on, so any generator. Planning has a
result and leaves the session as it is. There is no plan exactly if the battery has no source items.
Otherwise the plan is one of the battery, its cursor is at the first item and it is not complete.
Its items are the first source items, or the first of a permutation of them if the battery is
randomized: as many as the battery has for a limit if that is positive and there are as many, and
else all of them. The source items are those that the battery's source gives. -/
theorem Planning.newPlan_contains (h : b.Typed survey) (responses : Register Value) (d : Desk) :
    let items := sourceItems b survey responses
    b.Sourced survey responses items ∧
    ∃ o d', (newPlan b survey responses).perform d = (.ok o, d') ∧ d'.session = d.session ∧
      (o = none ↔ items = []) ∧
      ∀ plan, o = some plan → b.Takes items plan ∧ plan.isComplete = .ok false := by
  intro items
  obtain ⟨o, d', hperform, hsession, hplan⟩ := h.yields_newPlan (· = d.session) d rfl
  refine ⟨h.sourced responses, o, d', hperform, hsession, ?_, ?_⟩
  · cases o with
    | none => exact ⟨fun _ => hplan, fun _ => rfl⟩
    | some p => exact ⟨nofun, fun hnil => absurd hnil hplan.2⟩
  · rintro p rfl
    have hne : p.items ≠ [] := hplan.1.fits.items_eq_nil_iff.not.2 hplan.2
    have hopen : ¬(p.items.length : Int) ≤ 0 := by
      have := List.length_pos_iff.2 hne
      omega
    exact ⟨hplan.1, by rw [LoopPlan.isComplete_of_int hplan.1.cursor, decide_eq_false hopen]⟩

namespace Sample.BrandTracker

/-- The battery over brands with a limit. -/
def fewBrands (limit : Int) : Battery := { brands with maxItems := .int limit }

theorem typed_fewBrands (limit : Int) : (fewBrands limit).Typed (BrandTracker.survey (.int 2)) where
  questionId := by decide
  choiceValue := by decide
  maxItems := .inr ⟨limit, rfl⟩
  rowIndex := nofun

/-- An answer with a brand that is not offered and one that is named twice. -/
def namedBrands : Register Value :=
  .ofList [(.text "q_aware",
    .list [.text "puma", .text "reebok", .text "puma", .text "nike", .text "adidas"])]

end Sample.BrandTracker

open Sample BrandTracker in
/-- Two brands are planned where the answer names more. -/
theorem Planning.newPlan_contains_brandTracker :
    ∃ plan d', (newPlan (fewBrands 2) (BrandTracker.survey (.int 2)) namedBrands).perform
        ⟨default, .ofScript [], []⟩ = (.ok (some plan), d') ∧
      plan.keys = [.text "puma", .text "nike"] ∧ plan.isComplete = .ok false := by
  obtain ⟨-, o, d', hperform, -, hnone, hplan⟩ :=
    newPlan_contains (typed_fewBrands 2) namedBrands ⟨default, .ofScript [], []⟩
  cases o with
  | none => exact absurd (hnone.1 rfl) (by decide +kernel)
  | some plan =>
    obtain ⟨htakes, hopen⟩ := hplan plan rfl
    obtain ⟨drawn, -, hauthored, hitems⟩ := htakes.items
    refine ⟨plan, d', hperform, ?_, hopen⟩
    rw [LoopPlan.keys, hitems, hauthored rfl]
    decide +kernel

end Questionnaire
