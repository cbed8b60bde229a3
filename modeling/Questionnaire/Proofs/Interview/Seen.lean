import Questionnaire.Interview
import Questionnaire.Proofs.Page.Completeness
import Questionnaire.Proofs.Route.Selections

/-!
# What a respondent saw

Leaving a page asks the rules of the questions that the respondent could see there and answered.
What could be seen is decided without the page as it was shown: a question is looked at by itself,
and its group is looked up by the name that it has for it. The two agree
(`Interview.answered_iff_shown`): the groups that rendering goes through are those that can be
looked up (`Interview.groupOnPage?_eq_some_iff`), so the same conditions decide in both.
-/

namespace Questionnaire

open Flow Context

namespace Interview

variable {iv : Interview} {r : Renderer} {s : Session} {p : Page}

/-! ## Groups -/

/-- The group of a question on a page is the group of the page that the question names. -/
theorem groupOnPage?_eq_some_iff (hgroups : Named Group.id iv.survey.groups)
    (hgiven : ∀ g ∈ iv.survey.groups, g.id ≠ .text "") {q : Question} {pageId : Id} {g : Group} :
    iv.groupOnPage? q pageId = some g ↔
      g ∈ iv.survey.groupsOnPage pageId ∧ q.groupId.equal g.id = true := by
  have hmem : g ∈ iv.survey.groupsOnPage pageId ↔
      g ∈ iv.survey.groups ∧ g.pageId.equal pageId = true := by
    rw [Survey.groupsOnPage, (sortedBy_perm _ _).mem_iff, List.mem_filter]
  rw [hmem, groupOnPage?]
  constructor
  · intro h
    split at h
    · obtain ⟨hfound, hpage⟩ := Option.filter_eq_some_iff.1 h
      have hg : g ∈ iv.survey.groups := List.mem_of_find?_eq_some hfound
      have hname : g.id.equal q.groupId = true := by simpa using List.find?_some hfound
      have hid : g.id = q.groupId :=
        Value.eq_of_agrees (hgroups.texts g hg) (Value.agrees_of_equal hname)
      exact ⟨⟨hg, hpage⟩, (Value.equal_iff_of_isText (hgroups.texts g hg)).2 hid.symm⟩
    · cases h
  · rintro ⟨⟨hg, hpage⟩, hname⟩
    have hid : q.groupId = g.id := (Value.equal_iff_of_isText (hgroups.texts g hg)).1 hname
    have htruthy : q.groupId.isTruthy = true := by
      have htext := hgroups.texts g hg
      have hne := hgiven g hg
      rw [hid]
      cases hv : g.id with
      | text a =>
        rw [hv] at hne
        exact bne_iff_ne.2 fun h => hne (congrArg Value.text h)
      | _ => rw [hv] at htext; cases htext
    have hfound : iv.survey.group? q.groupId = some g := by
      rw [Survey.group?, hid]
      have hequal (g' : Group) : g'.id.equal g.id = true ↔ g'.id = g.id :=
        Value.equal_iff_of_isText (hgroups.texts g hg)
      exact find?_eq_some_of_unique hg ((hequal g).2 rfl) fun g' hg' hname' =>
        hgroups.eq_of_id hg' hg ((hequal g').1 hname')
    rw [if_pos htruthy, hfound]
    exact Option.filter_eq_some_iff.2 ⟨rfl, hpage⟩

/-- The group of a question on a page hides it exactly if a group of the page does. -/
theorem all_groupOnPage? (hr : r.survey = iv.survey) (hgroups : Named Group.id iv.survey.groups)
    (hgiven : ∀ g ∈ iv.survey.groups, g.id ≠ .text "") (q : Question) :
    ((iv.groupOnPage? q p.id).all fun g => (s.context iv.survey).isVisible g.visibleIf) =
      r.isGroupVisible s p q := by
  rw [Bool.eq_iff_iff, Option.all_eq_true, Renderer.isGroupVisible, List.all_eq_true, hr]
  constructor
  · intro h g hg
    cases hname : q.groupId.equal g.id with
    | false => rfl
    | true => exact h g ((groupOnPage?_eq_some_iff hgroups hgiven).2 ⟨hg, hname⟩)
  · intro h g hfound
    obtain ⟨hg, hname⟩ := (groupOnPage?_eq_some_iff hgroups hgiven).1 hfound
    have hshown := h g hg
    rwa [hname, Bool.not_true, Bool.false_or] at hshown

/-! ## What could be seen -/

/-- The verdict on the group of a question on a page; without one it is favourable. -/
def groupVerdict (iv : Interview) (s : Session) (pageId : Id) (q : Question) : Except Fault Bool :=
  match iv.groupOnPage? q pageId with
  | none => .ok true
  | some g => (s.context iv.survey).verdict g.visibleIf

/-- The verdict on whether a respondent could see a question on a page. -/
def sightVerdict (iv : Interview) (s : Session) (pageId : Id) (q : Question) : Except Fault Bool :=
  (iv.groupVerdict s pageId q).bind fun shown =>
    if shown then (s.context iv.survey).verdict q.visibleIf else .ok false

theorem reads_couldSee (pageId : Id) (q : Question) :
    (iv.couldSee pageId q).Reads fun s => iv.sightVerdict s pageId q := by
  -- What follows the verdict on the group.
  have hrest (s : Session) (shown : Bool) :
      Flow.Reads (if shown then (s.context iv.survey).shows iv.quiet q.visibleIf else pure false)
        fun _ => if shown then (s.context iv.survey).verdict q.visibleIf else .ok false :=
    .ite ((s.context iv.survey).reads_shows iv.quiet q.visibleIf) (.pure false)
  unfold couldSee
  refine Reads.congr (r := fun s => (Except.ok s).bind fun s' => iv.sightVerdict s' pageId q)
    (Reads.session.bind fun s => ?_) fun _ => rfl
  unfold sightVerdict groupVerdict
  cases iv.groupOnPage? q pageId with
  | none => exact (Reads.pure true).bind (hrest s)
  | some g => exact ((s.context iv.survey).reads_shows iv.quiet g.visibleIf).bind (hrest s)

/-- Whether a question counts as seen and answered is read off the answers and the verdict. -/
theorem reads_sawAndAnswered (t : Session) (pageId : Id) (q : Question) :
    (do
      Flow.demandKeys [q.id]
      if t.responses.contains q.id then iv.couldSee pageId q else pure false : Flow Bool).Reads
    fun s => (demandKeys [q.id]).bind fun _ =>
      if t.responses.contains q.id then iv.sightVerdict s pageId q else .ok false :=
  (Reads.ofResult (demandKeys [q.id])).bind fun _ => .ite (reads_couldSee pageId q) (.pure false)

/-- Where there is a verdict on every condition that matters, there is one on whether a question
could be seen, and it is that the question is visible. -/
theorem sightVerdict_eq (hr : r.survey = iv.survey) (hgroups : Named Group.id iv.survey.groups)
    (hgiven : ∀ g ∈ iv.survey.groups, g.id ≠ .text "") {q : Question}
    (hjudged : ∀ g ∈ iv.survey.groupsOnPage p.id, r.Judged s g.visibleIf)
    (hq : r.isGroupVisible s p q = true → r.Judged s q.visibleIf) :
    iv.sightVerdict s p.id q =
      .ok (r.isGroupVisible s p q && (s.context iv.survey).isVisible q.visibleIf) := by
  have hvisible := all_groupOnPage? (r := r) (s := s) (p := p) hr hgroups hgiven q
  have hshown (hgroup : r.isGroupVisible s p q = true) : (s.context iv.survey).verdict q.visibleIf =
      .ok ((s.context iv.survey).isVisible q.visibleIf) := by
    obtain ⟨b, hb⟩ := hq hgroup
    rw [hr] at hb
    rw [isVisible, hb]
    rfl
  rw [sightVerdict, groupVerdict]
  cases hgroup : iv.groupOnPage? q p.id with
  | none =>
    rw [hgroup] at hvisible
    have htrue : r.isGroupVisible s p q = true := hvisible.symm
    rw [htrue, Bool.true_and]
    exact hshown htrue
  | some g =>
    rw [hgroup] at hvisible
    have hsame : (s.context iv.survey).isVisible g.visibleIf = r.isGroupVisible s p q := hvisible
    obtain ⟨b, hb⟩ := hjudged g ((groupOnPage?_eq_some_iff hgroups hgiven).1 hgroup).1
    rw [hr] at hb
    rw [isVisible, hb] at hsame
    have hb' : b = r.isGroupVisible s p q := hsame
    dsimp only
    rw [hb, hb']
    cases hcase : r.isGroupVisible s p q with
    | false => rfl
    | true => exact (hshown hcase).trans (by rw [Bool.true_and])

/-- The questions that could be seen on a page and have an answer are the visible ones that have
one. -/
theorem answeredQuestions_yields {pageId : Id} (hpage : p.id.agrees pageId = true)
    (hr : r.survey = iv.survey) (hquestions : Named Question.id iv.survey.questions)
    (hgroups : Named Group.id iv.survey.groups)
    (hgiven : ∀ g ∈ iv.survey.groups, g.id ≠ .text "") {gs : List RenderedGroup}
    (hgs : r.PageShown s p gs) :
    Yields s.SameData (iv.answeredQuestions pageId) fun answered _ => answered =
      (iv.survey.questionsOnPage p.id).filter fun q => s.responses.contains q.id &&
        (r.isGroupVisible s p q && (s.context iv.survey).isVisible q.visibleIf) := by
  have hindexes := hgs.indexes
  have hjudged := hgs.groupVerdicts
  have hseen := hgs.questionVerdicts
  rw [hr] at hindexes hjudged hseen
  have honPage : iv.survey.questionsOnPage pageId = iv.survey.questionsOnPage p.id := by
    simp only [Survey.questionsOnPage, Value.equal_congr hpage]
  have hsight (t : Session) (ht : s.SameData t) (q : Question) :
      iv.sightVerdict t pageId q = iv.sightVerdict s p.id q := by
    simp only [sightVerdict, groupVerdict, groupOnPage?, Value.equal_congr hpage,
      ht.context iv.survey]
  unfold answeredQuestions
  refine .bind .session fun t => .given (p := t.responses = s.responses)
    (fun _ h => h.2 ▸ h.1.responses) fun ht => ?_
  rw [honPage]
  refine .bind ((Yields.ofOk hindexes).mono (fun _ h => h.1) fun _ _ h => h.1) fun _ => ?_
  refine (Yields.keep_known fun q hq =>
    .of_reads_known (reads_sawAndAnswered t pageId q) fun t' ht' => ?_).mono
    (fun _ h => h) fun _ _ h => h.2
  have hkey : demandKeys [q.id] = .ok () :=
    demandKeys_eq_ok_iff.2 <| List.forall_mem_singleton.2 <|
      Value.isCompound_of_isText (hquestions.texts q (Renderer.mem_questionsOnPage hq))
  rw [hkey, ht, hsight t' ht', sightVerdict_eq hr hgroups hgiven hjudged (hseen q hq)]
  cases s.responses.contains q.id <;> rfl

/-- The page as it is shown and the rules for leaving it agree on what the respondent saw. A visible
page that is legible can be rendered. Once it was rendered, and as long as the answers and the
embedded data stay the same, the answered questions of the page are known as well; and their ids are
those of the questions that were shown and have an answer. -/
theorem answered_iff_shown (hr : r.survey = iv.survey)
    (hquestions : Named Question.id iv.survey.questions) (hgroups : Named Group.id iv.survey.groups)
    (hgiven : ∀ g ∈ iv.survey.groups, g.id ≠ .text "")
    (hreserved : ∀ g ∈ iv.survey.groups, g.id ≠ Renderer.standaloneId) {pageId : Id}
    (hp : iv.survey.page? pageId = some p) (d : Desk) (horders : Order.Tidy d.session.orders)
    (hvisible : (d.session.context iv.survey).isVisible p.visibleIf = true) :
    (r.Legible d.session p → ∃ shown d', (r.page pageId).perform d = (.ok shown, d')) ∧
    ∀ shown d', (r.page pageId).perform d = (.ok shown, d') →
      ∀ e : Desk, d.session.SameData e.session →
        ∃ answered e', (iv.answeredQuestions pageId).perform e = (.ok answered, e') ∧
          ∀ id, id ∈ answered.map Question.id ↔
            id ∈ shown.questions.map RenderedQuestion.id ∧
              d.session.responses.contains id = true := by
  have hp' : r.survey.page? pageId = some p := by rw [hr, hp]
  refine ⟨fun hlegible => Renderer.exists_page hp' hlegible horders, ?_⟩
  intro shown d' hshown e he
  have hquestions' : Named Question.id r.survey.questions := by rwa [hr]
  have hgroups' : Named Group.id r.survey.groups := by rwa [hr]
  have hvisible' : (d.session.context r.survey).isVisible p.visibleIf = true := by rwa [hr]
  obtain ⟨gs, hgs, -, hperm⟩ := Renderer.page_ensures hquestions' hgroups' hp' hvisible' d shown d'
    (.start horders) hshown
  have hnamed : Named RenderedGroup.id gs := by
    refine hgs.named hgroups' fun _ g hg _ => hreserved g ?_
    rw [hr] at hg
    exact (List.mem_filter.1 ((sortedBy_perm _ _).mem_iff.1 hg)).1
  have hids : (shown.questions.map RenderedQuestion.id).Perm
      ((r.visibleQuestions d.session p).map Question.id) :=
    (hgs.portrays.perm_shown ((hperm hnamed).flatMap_right _)).map_perm fun q rq h => h.id
  have hpage : p.id.agrees pageId = true :=
    Value.agrees_of_equal (by simpa using List.find?_some hp)
  obtain ⟨answered, e', hanswered, heq⟩ :=
    answeredQuestions_yields hpage hr hquestions hgroups hgiven hgs e he
  refine ⟨answered, e', hanswered, fun id => ?_⟩
  rw [hids.mem_iff, heq, Renderer.visibleQuestions, hr]
  simp only [List.mem_map, List.mem_filter, Bool.and_eq_true]
  constructor
  · rintro ⟨q, ⟨hq, hanswer, hgroup, hshows⟩, rfl⟩
    exact ⟨⟨q, ⟨hq, hshows, hgroup⟩, rfl⟩, hanswer⟩
  · rintro ⟨⟨q, ⟨hq, hshows, hgroup⟩, rfl⟩, hanswer⟩
    exact ⟨q, ⟨hq, hanswer, hgroup, hshows⟩, rfl⟩

end Interview

/-! ## A page with a hidden group -/

namespace Sample.HiddenGroup

open Carrying

/-- A group that is hidden unless the second question is answered in a certain way. -/
def hidden : Group := { group "h" with visibleIf := BrandTracker.criterion "e" "equals('Q2', 'x')" }

/-- A question in the hidden group. -/
def first : Question :=
  { BrandTracker.plainQuestion "q1" "p" "Q1" .text "" with groupId := .text "h" }

/-- A question without a group. -/
def second : Question :=
  { BrandTracker.plainQuestion "q2" "p" "Q2" .text "" with index := .int 1 }

/-- The interview. -/
def interview : Interview := ⟨onePage [hidden] [first, second], Settings.default, .ofScript [0]⟩

/-- A session in which both questions have an answer. -/
def desk : Desk :=
  let s : Session := .new (.text "s1") (.text "survey") ∅
  ⟨(s.respond (.text "q1") (.text "a")).respond (.text "q2") (.text "b"), .ofScript [0], []⟩

theorem questionsOnPage : interview.survey.questionsOnPage brandsPage.id = [first, second] :=
  questionsOnPage_pair [hidden] rfl rfl rfl rfl

end Sample.HiddenGroup

open Sample Sample.Carrying Sample.HiddenGroup in
/-- Of two questions with an answer, only the one that is shown counts as answered. -/
theorem Interview.answered_iff_shown_hiddenGroup :
    ∃ shown d' answered e',
      ((renderer interview.survey).page (.text "p")).perform HiddenGroup.desk = (.ok shown, d') ∧
      (interview.answeredQuestions (.text "p")).perform d' = (.ok answered, e') ∧
      ∀ id, id ∈ answered.map Question.id ↔ id = .text "q2" := by
  let r := renderer interview.survey
  have hpage : interview.survey.page? (.text "p") = some brandsPage := by decide +kernel
  have hevaluated : ((r.page (.text "p")).perform HiddenGroup.desk).1.map
      (fun shown => shown.questions.map RenderedQuestion.id) = .ok [.text "q2"] := by
    have hpage' : r.survey.page? (.text "p") = some brandsPage := hpage
    have honPage : r.survey.questionsOnPage brandsPage.id = [HiddenGroup.first, second] :=
      HiddenGroup.questionsOnPage
    simp only [Renderer.page, hpage', Renderer.groups, honPage]
    decide +kernel
  have horders : Order.Tidy HiddenGroup.desk.session.orders := tidy_desk []
  obtain ⟨-, hall⟩ := @Interview.answered_iff_shown interview r brandsPage rfl
    ⟨by decide, by decide⟩ ⟨by decide, by decide⟩ (by decide) (by decide) (.text "p") hpage
    HiddenGroup.desk horders rfl
  rcases hperform : (r.page (.text "p")).perform HiddenGroup.desk with ⟨e | shown, d'⟩ <;>
    rw [hperform] at hevaluated
  · cases hevaluated
  have hids : shown.questions.map RenderedQuestion.id = [.text "q2"] := Except.ok.inj hevaluated
  have hsame : HiddenGroup.desk.session.SameData d'.session := by
    have hkeeps := Renderer.keeps_page (P := HiddenGroup.desk.session.SameData)
      (fun _ _ h => ⟨h.responses, h.embedded⟩) r (.text "p")
    exact hkeeps _ _ _ ⟨rfl, rfl⟩ hperform
  obtain ⟨answered, e', hanswered, hiff⟩ := hall shown d' hperform d' hsame
  refine ⟨shown, d', answered, e', rfl, hanswered, fun id => ?_⟩
  rw [hiff, hids, List.mem_singleton]
  constructor
  · exact And.left
  · rintro rfl
    exact ⟨rfl, by decide⟩

end Questionnaire
