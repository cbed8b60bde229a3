import Questionnaire.Proofs.Page.Legible
import Questionnaire.Proofs.Page.Portrait

/-!
# The groups of a page

A question is shown with the group that it names, or in the implicit group if its page has no such
group. As groups have different ids, no question is shown with two of them, and the questions of the
visible groups together with those of the implicit one are the visible questions of the page
(`Renderer.visibleQuestions_perm`). So the groups of a page portray its visible questions
(`Renderer.groups_ensures`), and so does the page, unless two of the groups share an id
(`Renderer.page_ensures`).
-/

namespace Questionnaire

open Flow Context

namespace Renderer

variable {r : Renderer} {s : Session} {p : Page}

/-! ## The parts of a page -/

section
variable {survey : Survey} {pageId : Id}

theorem mem_questionsOnPage {q : Question} (h : q ∈ survey.questionsOnPage pageId) :
    q ∈ survey.questions :=
  (List.mem_filter.1 ((sortedBy_perm _ _).mem_iff.1 h)).1

theorem named_questionsOnPage (h : Named Question.id survey.questions) (pageId : Id) :
    Named Question.id (survey.questionsOnPage pageId) :=
  (h.filter _).perm (sortedBy_perm _ _)

theorem named_groupsOnPage (h : Named Group.id survey.groups) (pageId : Id) :
    Named Group.id (survey.groupsOnPage pageId) :=
  (h.filter _).perm (sortedBy_perm _ _)

end

section
variable {authored : List Group} (hgroups : Named Group.id authored)
include hgroups

/-- A question belongs to no group of its page exactly if it names none of them. -/
theorem standalone_eq (onPage : List Question) : standalone onPage authored =
    onPage.filter fun q => !authored.any fun g => q.groupId.equal g.id := by
  refine List.filter_congr fun q _ => ?_
  have hamong : q.groupId.isAmong (authored.map Group.id) =
      authored.any fun g => q.groupId.equal g.id := by
    rw [Value.isAmong, List.any_map, Bool.eq_iff_iff, List.any_eq_true, List.any_eq_true]
    refine exists_congr fun g => and_congr_right fun hg => ?_
    have htext := hgroups.texts g hg
    rw [Value.equal_iff_of_isText htext]
    exact ⟨fun h => (Value.eq_of_agrees htext h).symm, fun h => h ▸ Value.agrees_self g.id⟩
  rw [hamong]
  cases hnull : q.groupId == .null with
  | false => rfl
  | true =>
    have hnone : (authored.any fun g => q.groupId.equal g.id) = false := by
      refine List.any_eq_false.2 fun g hg => ?_
      rw [Value.equal_iff_of_isText (hgroups.texts g hg), eq_of_beq hnull]
      intro h
      have htext := hgroups.texts g hg
      rw [← h] at htext
      cases htext
    rw [hnone]
    rfl

/-- No question belongs to two groups. -/
theorem pairwise_groups (onPage : List Question) (f : Question → Bool) :
    authored.Pairwise fun g g' => ∀ q ∈ onPage, (f q && q.groupId.equal g.id) = true →
      (f q && q.groupId.equal g'.id) = false := by
  refine (List.pairwise_map.1 hgroups.nodup).imp_of_mem fun {g g'} hg hg' hne q _ h => ?_
  have heq := (Value.equal_iff_of_isText (hgroups.texts g hg)).1 (Bool.and_eq_true_iff.1 h).2
  refine Bool.eq_false_iff.2 fun h' => hne ?_
  have heq' := (Value.equal_iff_of_isText (hgroups.texts g' hg')).1 (Bool.and_eq_true_iff.1 h').2
  exact heq.symm.trans heq'

end

/-- The visible questions of the visible groups and those without a group are the visible questions
of the page. -/
theorem visibleQuestions_perm (hgroups : Named Group.id (r.survey.groupsOnPage p.id)) :
    (((r.survey.groupsOnPage p.id).filter fun g =>
        (s.context r.survey).isVisible g.visibleIf).flatMap fun g =>
        ((r.survey.questionsOnPage p.id).filter fun q => q.groupId.equal g.id).filter fun q =>
          (s.context r.survey).isVisible q.visibleIf) ++
      ((standalone (r.survey.questionsOnPage p.id) (r.survey.groupsOnPage p.id)).filter fun q =>
        (s.context r.survey).isVisible q.visibleIf) |>.Perm (r.visibleQuestions s p) := by
  let authored := r.survey.groupsOnPage p.id
  let onPage := r.survey.questionsOnPage p.id
  let seen (q : Question) : Bool := (s.context r.survey).isVisible q.visibleIf
  let visible := authored.filter fun g => (s.context r.survey).isVisible g.visibleIf
  have hvisible : Named Group.id visible := hgroups.filter _
  have hgrouped : (visible.flatMap fun g =>
        (onPage.filter fun q => q.groupId.equal g.id).filter seen).Perm
      (onPage.filter fun q => visible.any fun g => seen q && q.groupId.equal g.id) := by
    simp only [List.filter_filter]
    exact Order.flatMap_filter_perm (pairwise_groups hvisible onPage seen)
  have hrest : (standalone onPage authored).filter seen =
      onPage.filter fun q => seen q && !authored.any fun g => q.groupId.equal g.id := by
    rw [standalone_eq hgroups, List.filter_filter]
  refine (hgrouped.append (.of_eq hrest)).trans ?_
  refine (Order.filter_append_filter_or_perm fun q _ hq => ?_).trans
    (.of_eq (List.filter_congr fun q _ => ?_))
  · obtain ⟨g, hg, hmember⟩ := List.any_eq_true.1 hq
    have hsome : (authored.any fun g => q.groupId.equal g.id) = true :=
      List.any_eq_true.2 ⟨g, (List.mem_filter.1 hg).1, (Bool.and_eq_true_iff.1 hmember).2⟩
    rw [hsome, Bool.not_true, Bool.and_false]
  · rw [Bool.eq_iff_iff]
    simp only [Bool.or_eq_true, List.any_eq_true, Bool.and_eq_true, Bool.not_eq_true',
      List.any_eq_false, isGroupVisible, List.all_eq_true]
    constructor
    · rintro (⟨g, hg, hq, hgq⟩ | ⟨hq, hnone⟩)
      · refine ⟨hq, fun g' hg' => ?_⟩
        cases hmember : q.groupId.equal g'.id with
        | false => exact .inl rfl
        | true =>
          -- The group that the question names is the visible one.
          obtain ⟨hmem, hshown⟩ := List.mem_filter.1 hg
          rw [Value.equal_iff_of_isText (hgroups.texts g hmem)] at hgq
          rw [Value.equal_iff_of_isText (hgroups.texts g' hg')] at hmember
          exact .inr (hgroups.eq_of_id hmem hg' (hgq.symm.trans hmember) ▸ hshown)
      · exact ⟨hq, fun g' hg' => .inl (by simpa using hnone g' hg')⟩
    · rintro ⟨hq, hall⟩
      by_cases hsome : ∃ g ∈ authored, q.groupId.equal g.id = true
      · obtain ⟨g, hg, hgq⟩ := hsome
        have hshown := (hall g hg).resolve_left (by simp [hgq])
        exact .inl ⟨g, List.mem_filter.2 ⟨hg, hshown⟩, hq, hgq⟩
      · exact .inr ⟨hq, fun g hg hgq => hsome ⟨g, hg, hgq⟩⟩

/-! ## Pages -/

variable (r s p) in
/-- What the groups of a page are shown as before they are put in order. -/
structure PageShown (gs : List RenderedGroup) : Prop where
  ids : gs.map RenderedGroup.id =
    ((r.survey.groupsOnPage p.id).filter fun g =>
      (s.context r.survey).isVisible g.visibleIf).map Group.id ++
    if (standalone (r.survey.questionsOnPage p.id) (r.survey.groupsOnPage p.id)).isEmpty then []
    else [standaloneId]
  portrays : r.Portrays s (r.visibleQuestions s p) (gs.flatMap RenderedGroup.questions)
  indexes : demandComparable ((r.survey.questionsOnPage p.id).map Question.index) = .ok ()
  groupVerdicts : ∀ g ∈ r.survey.groupsOnPage p.id, r.Judged s g.visibleIf
  questionVerdicts : ∀ q ∈ r.survey.questionsOnPage p.id, r.isGroupVisible s p q = true →
    r.Judged s q.visibleIf

/-- There is a verdict on each question of a visible group. -/
theorem judged_of_groupsShown {onPage : List Question} {authored : List Group}
    {found : List (Option RenderedGroup)}
    (h : List.Forall₂ (r.GroupShown s onPage) authored found) {g : Group} (hg : g ∈ authored) :
    r.Judged s g.visibleIf ∧ ∀ q ∈ onPage, q.groupId.equal g.id = true →
      (s.context r.survey).isVisible g.visibleIf = true → r.Judged s q.visibleIf := by
  induction h with
  | nil => cases hg
  | cons hshown _ ih =>
    rcases List.mem_cons.1 hg with rfl | hg
    · cases hshown with
      | hidden hverdict =>
        refine ⟨⟨false, hverdict⟩, fun q _ _ hvisible => ?_⟩
        rw [isVisible, hverdict] at hvisible
        cases hvisible
      | shown hverdict _ hmembers _ =>
        exact ⟨⟨true, hverdict⟩, fun q hq hgq _ => hmembers q (List.mem_filter.2 ⟨hq, hgq⟩)⟩
    · exact ih hg

section
variable (hquestions : Named Question.id r.survey.questions)
  (hgroups : Named Group.id r.survey.groups)
include hquestions hgroups

/-- The groups of a page portray its visible questions. -/
theorem groups_ensures (p : Page) : Ensures (r.Underway s) (r.groups p) fun gs t =>
    r.Underway s t ∧ r.PageShown s p gs := by
  unfold groups
  let onPage := r.survey.questionsOnPage p.id
  let authored := r.survey.groupsOnPage p.id
  have honPage (q : Question) (hq : q ∈ onPage) : q ∈ r.survey.questions := mem_questionsOnPage hq
  have hapart : Named Question.id onPage := named_questionsOnPage hquestions p.id
  have hauthored : Named Group.id authored := named_groupsOnPage hgroups p.id
  refine .bind Ensures.ofResult fun _ => .given (fun _ h => h.2) fun hindexes => ?_
  refine .bind (Keeps.demandComparable.mono (fun _ h => h.1) fun _ _ h => h) fun _ => ?_
  refine .bind (Ensures.mapM_forall₂ fun g _ => group?_ensures hquestions honPage hapart g)
    fun found => .given (fun _ h => h.2) fun hfound => ?_
  refine .bind (Keeps.demandKeys.mono (fun _ h => h.1) fun _ _ h => h) fun _ => ?_
  have hrestEq : standalone onPage authored = onPage.filter fun q =>
      !authored.any fun g => q.groupId.equal g.id := standalone_eq hauthored onPage
  -- A question is tried with its group, or with those that have none.
  have hverdicts (hrest : ∀ q ∈ standalone onPage authored, r.Judged s q.visibleIf) (q : Question)
      (hq : q ∈ onPage) (hvisible : r.isGroupVisible s p q = true) : r.Judged s q.visibleIf := by
    cases hany : authored.any fun g => q.groupId.equal g.id with
    | false => exact hrest q (hrestEq ▸ List.mem_filter.2 ⟨hq, by simp [hany]⟩)
    | true =>
      obtain ⟨g, hg, hgq⟩ := List.any_eq_true.1 hany
      have hgroup := List.all_eq_true.1 hvisible g hg
      rw [hgq, Bool.not_true, Bool.false_or] at hgroup
      exact (judged_of_groupsShown hfound hg).2 q hq hgq hgroup
  have hportrays {rest : List RenderedQuestion} (h : r.Portrays s
      ((standalone onPage authored).filter fun q => (s.context r.survey).isVisible q.visibleIf)
      rest) : r.Portrays s (r.visibleQuestions s p)
        ((found.filterMap id).flatMap RenderedGroup.questions ++ rest) :=
    ((portrays_of_groupsShown hfound).append h).perm (visibleQuestions_perm hauthored)
  have hjudged (g : Group) (hg : g ∈ authored) : r.Judged s g.visibleIf :=
    (judged_of_groupsShown hfound hg).1
  refine .ite (fun hempty => .pure fun t ht => ⟨ht, ?_⟩) fun hsome => ?_
  · have hnone : standalone onPage authored = [] := List.isEmpty_iff.1 hempty
    refine ⟨?_, ?_, hindexes, hjudged, hverdicts fun q hq => ?_⟩
    · rw [hempty, if_pos rfl, List.append_nil]
      exact ids_of_groupsShown hfound
    · rw [← List.append_nil (List.flatMap _ _)]
      refine hportrays ?_
      rw [hnone]
      exact ⟨[], .refl _, .nil⟩
    · rw [hnone] at hq
      cases hq
  · have hrest : (standalone onPage authored).Sublist onPage := List.filter_sublist
    refine .bind (questions_ensures hquestions (fun q hq => honPage q (hrest.subset hq))
      (hapart.sublist hrest)) fun rest => .pure fun t ht => ⟨ht.1, ?_⟩
    refine ⟨?_, ?_, hindexes, hjudged, hverdicts ht.2.1⟩
    · rw [hsome, List.map_append, ids_of_groupsShown hfound]
      rfl
    · rw [List.flatMap_append, List.flatMap_singleton]
      exact hportrays ht.2.2

/-- A page that is visible shows its groups, in some order if their ids are different. -/
theorem page_ensures {pageId : Id} (hp : r.survey.page? pageId = some p)
    (hvisible : (s.context r.survey).isVisible p.visibleIf = true) :
    Ensures (r.Underway s) (r.page pageId) fun shown _ => ∃ gs, r.PageShown s p gs ∧
      (∀ g ∈ shown.groups, g ∈ gs) ∧ (Named RenderedGroup.id gs → shown.groups.Perm gs) := by
  unfold page
  rw [hp]
  refine .bind (.of_reads (r.reads_shows p.visibleIf)) fun shown => ?_
  refine .given (p := shown = true) (fun t ht => ?_) fun hshown => ?_
  · obtain ⟨hdata, hread⟩ := ht
    rw [hdata.data.context] at hread
    rw [isVisible, hread] at hvisible
    exact hvisible
  subst hshown
  refine .bind ((groups_ensures hquestions hgroups p).mono (fun _ h => h.1) fun _ _ h => h)
    fun gs => .given (fun _ h => h.2) fun hgs => ?_
  have hkey : ¬r.Spoiled s (Order.cacheKey "group" p.id.display p.groupOrder) :=
    not_spoiled (by decide) (by decide)
  have hperm : Ensures (r.Underway s)
      (Order.arrange r.weighting "group" p.id.display p.groupOrder (gs.map fun g => .plain g.id))
      fun ids _ => Named RenderedGroup.id gs → ids.Perm (gs.map RenderedGroup.id) := by
    intro d ids d' hd hperform hnamed
    have hids := arrange_perm hkey (hnamed.sortables fun _ => rfl) d ids d' hd hperform
    rwa [List.map_map] at hids
  refine .bind (hperm.mono (fun _ h => h.1) fun _ _ h => h) fun ids => .given (fun _ h => h)
    fun hids => ?_
  refine .bind (keeps_wording r p.title) fun title => .pure fun _ _ => ⟨gs, hgs, ?_, ?_⟩
  · exact fun g hg => mem_of_mem_pick hg
  · exact fun hnamed => hnamed.pick_perm (hids hnamed)

omit hquestions in
/-- The groups of a page as shown have different ids if no visible one has the id of the implicit
group, which is there if a question has no group. -/
theorem PageShown.named {gs : List RenderedGroup} (h : r.PageShown s p gs)
    (hreserved : standalone (r.survey.questionsOnPage p.id) (r.survey.groupsOnPage p.id) ≠ [] →
      ∀ g ∈ r.survey.groupsOnPage p.id, (s.context r.survey).isVisible g.visibleIf = true →
        g.id ≠ standaloneId) : Named RenderedGroup.id gs := by
  have hvisible : Named Group.id ((r.survey.groupsOnPage p.id).filter fun g =>
      (s.context r.survey).isVisible g.visibleIf) :=
    (named_groupsOnPage hgroups p.id).filter _
  rw [named_iff, h.ids]
  cases hrest : (standalone (r.survey.questionsOnPage p.id)
      (r.survey.groupsOnPage p.id)).isEmpty with
  | true =>
    rw [if_pos rfl, List.append_nil]
    exact named_iff.1 hvisible
  | false =>
    rw [if_neg Bool.false_ne_true]
    constructor
    · intro id hid
      rcases List.mem_append.1 hid with hid | hid
      · exact (named_iff.1 hvisible).1 id hid
      · rw [List.mem_singleton.1 hid]
        rfl
    · refine List.nodup_append'.2 ⟨hvisible.nodup, List.nodup_singleton _, ?_⟩
      intro id hid hstandalone
      rw [List.mem_singleton.1 hstandalone] at hid
      obtain ⟨g, hg, hname⟩ := List.mem_map.1 hid
      obtain ⟨hmem, hshown⟩ := List.mem_filter.1 hg
      have hne : standalone (r.survey.questionsOnPage p.id) (r.survey.groupsOnPage p.id) ≠ [] :=
        fun hnil => by rw [hnil] at hrest; cases hrest
      exact hreserved hne g hmem hshown hname

end

end Renderer

end Questionnaire
