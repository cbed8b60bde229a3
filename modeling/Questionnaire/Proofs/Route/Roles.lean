import Questionnaire.Route.Roles

/-!
# Which batteries own pages

The stretches of a role table are those of accepted batteries, in the order in which the batteries
were authored. Every one of them is told by its battery (`Survey.batteryPages?`), and no page is in
two of them.
-/

namespace Questionnaire

theorem Value.isAmong_congr {v w : Value} (h : v.agrees w = true) (l : List Value) :
    v.isAmong l = w.isAmong l := by
  simp only [isAmong, agrees_comm _ v, agrees_comm _ w, agrees_congr h]

namespace RoleTable

variable {survey : Survey} {t : RoleTable} {st : Stretch} {b : Battery}

/-- A battery is added to the stretches or left out. -/
theorem add_cases (t : RoleTable) (survey : Survey) (b : Battery) :
    t.add survey b = t ∨ ∃ ids, survey.batteryPages? b = some ids ∧
      (∀ id ∈ ids, t.ownerOf? id = none) ∧ t.add survey b = ⟨t.stretches ++ [⟨b, ids⟩]⟩ := by
  unfold add verdict
  cases hids : survey.batteryPages? b with
  | none => exact .inl rfl
  | some ids =>
    cases htaken : ids.filter fun id => (t.ownerOf? id).isSome with
    | cons a r => left; simp [htaken]
    | nil =>
      refine .inr ⟨ids, rfl, fun id hid => ?_, by simp [htaken]⟩
      simpa using List.filter_eq_nil_iff.1 htaken id hid

/-- A property of stretches that accepted batteries have all stretches of a table have. -/
theorem forall_mem_addAll {P : Stretch → Prop} :
    ∀ {l : List Battery} {t : RoleTable}, (∀ st ∈ t.stretches, P st) →
      (∀ b ∈ l, ∀ ids, survey.batteryPages? b = some ids → P ⟨b, ids⟩) →
      ∀ st ∈ (addAll survey t l).1.stretches, P st
  | [], _, ht, _, st, hst => ht st hst
  | b :: r, t, ht, hl, st, hst => by
    refine forall_mem_addAll (l := r) (t := t.add survey b) (fun st hst => ?_)
      (fun c hc => hl c (.tail _ hc)) st hst
    rcases add_cases t survey b with h | ⟨ids, hids, -, h⟩ <;> rw [h] at hst
    · exact ht st hst
    · rcases List.mem_append.1 hst with hst | hst
      · exact ht st hst
      · cases List.mem_singleton.1 hst
        exact hl b (.head _) ids hids

/-- The stretches of a survey are those of its batteries. -/
theorem mem_batteries_of_mem_stretches (h : st ∈ (ofSurvey survey).1.stretches) :
    st.battery ∈ survey.batteries ∧ survey.batteryPages? st.battery = some st.pageIds :=
  forall_mem_addAll (P := fun st => st.battery ∈ survey.batteries ∧
      survey.batteryPages? st.battery = some st.pageIds)
    (by simp) (fun _ hb _ hids => ⟨hb, hids⟩) st h

end RoleTable

/-- A battery that is accepted: the role table has its pages. -/
def Survey.Accepts (survey : Survey) (b : Battery) : Prop :=
  ∃ st ∈ (RoleTable.ofSurvey survey).1.stretches, st.battery = b

theorem Survey.Accepts.mem {survey : Survey} {b : Battery} (h : survey.Accepts b) :
    b ∈ survey.batteries := by
  obtain ⟨st, hst, rfl⟩ := h
  exact (RoleTable.mem_batteries_of_mem_stretches hst).1

namespace RoleTable

variable {survey : Survey} {t : RoleTable} {st : Stretch} {b : Battery}

/-! ## One owner for each page -/

/-- No id of one stretch is among those of another. -/
def Stretch.Apart (a b : Stretch) : Prop := ∀ id ∈ b.pageIds, id.isAmong a.pageIds = false

theorem isAmong_eq_false_of_ownerOf?_eq_none {id : Id} (h : t.ownerOf? id = none)
    (hst : st ∈ t.stretches) : id.isAmong st.pageIds = false := by
  have hnone := List.find?_eq_none.1 (Option.map_eq_none_iff.1 h) st hst
  simpa using hnone

/-- A battery is left out if one of its pages is in a stretch, so the stretches are apart. -/
theorem pairwise_addAll : ∀ {l : List Battery} {t : RoleTable}, t.stretches.Pairwise Stretch.Apart →
    (addAll survey t l).1.stretches.Pairwise Stretch.Apart
  | [], _, h => h
  | b :: r, t, h => by
    refine pairwise_addAll (l := r) (t := t.add survey b) ?_
    rcases add_cases t survey b with hsame | ⟨ids, -, hfree, hadd⟩
    · rw [hsame]
      exact h
    · rw [hadd]
      refine List.pairwise_append.2 ⟨h, List.pairwise_singleton _ _, fun st hst st' hst' => ?_⟩
      cases List.mem_singleton.1 hst'
      exact fun id hid => isAmong_eq_false_of_ownerOf?_eq_none (hfree id hid) hst

theorem pairwise_ofSurvey (survey : Survey) :
    (ofSurvey survey).1.stretches.Pairwise Stretch.Apart := pairwise_addAll .nil

/-- A page that is in a stretch is owned by its battery. -/
theorem ownerOf?_of_mem (ht : t.stretches.Pairwise Stretch.Apart) (hst : st ∈ t.stretches) {id : Id}
    (hid : id.isAmong st.pageIds = true) : t.ownerOf? id = some (st.battery, st.roleOf id) := by
  obtain ⟨before, after, hsplit⟩ := List.append_of_mem hst
  rw [hsplit, List.pairwise_append] at ht
  have hbefore : before.find? (fun a => id.isAmong a.pageIds) = none := by
    refine List.find?_eq_none.2 fun a ha => ?_
    obtain ⟨j, hj, hagree⟩ := List.any_eq_true.1 hid
    have hapart := ht.2.2 a ha st (.head _) j hj
    rw [Value.isAmong_congr hagree] at hapart
    simp [hapart]
  rw [ownerOf?, hsplit, List.find?_append, hbefore, Option.none_or]
  simp [hid]

/-- The owner of a page has it in its stretch. -/
theorem exists_of_ownerOf? {id : Id} {role : LoopRole} (h : t.ownerOf? id = some (b, role)) :
    ∃ st ∈ t.stretches, st.battery = b ∧ id.isAmong st.pageIds = true ∧ st.roleOf id = role := by
  obtain ⟨st, hst, he⟩ := Option.map_eq_some_iff.1 h
  have hid := List.find?_some (p := fun st : Stretch => id.isAmong st.pageIds) hst
  exact ⟨st, List.mem_of_find?_eq_some hst, congrArg Prod.fst he, hid, congrArg Prod.snd he⟩

/-- The battery that starts on a page names it as its start page. -/
theorem agrees_startPageId_of_roleOf? {id : Id} (h : t.roleOf? id = some (b, .start)) :
    id.agrees b.startPageId = true := by
  obtain ⟨v, hv, hrole⟩ := Option.bind_eq_some_iff.1 h
  obtain ⟨st, -, rfl, -, hstart⟩ := exists_of_ownerOf? hrole
  have hagree : v.agrees st.battery.startPageId = true := by
    unfold Stretch.roleOf at hstart
    split at hstart
    · assumption
    · split at hstart <;> cases hstart
  cases id <;> cases hv <;> exact hagree

end RoleTable

end Questionnaire
