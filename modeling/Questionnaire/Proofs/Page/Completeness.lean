import Questionnaire.Proofs.Page.Assembly
import Questionnaire.Sample.BrandTracker

/-!
# Pages are complete

A visible page shows every visible question once and, for each of these, every visible choice once
(`Renderer.page_shows_each_once`). Authored ids that differ are not enough for that: the implicit
group and the carried choices have ids that are made for them, and an author may have given the same
ids to something else. Then one of two things is shown twice and the other one is lost
(`Renderer.standalone_id_taken`, `Renderer.carried_id_taken`).
-/

namespace Questionnaire

open Flow Context

namespace Renderer

variable {r : Renderer} {s : Session} {p : Page}

/-! ## Choices -/

/-- The visible choices of a question are its own and the carried ones that are visible. -/
theorem visibleChoices_perm (q : Question) : (r.visibleChoices s q).Perm
    ((q.choices ++ (Carried.carriedChoices q r.survey s.responses).1).filter
      ((s.context r.survey).isChoiceVisible q)) :=
  ((sortedBy_perm Choice.index q.choices).append_right _).filter _

theorem carriedId_injective {i j : Id} (hi : i.isText = true) (hj : j.isText = true)
    (h : Carried.carriedId i = Carried.carriedId j) : i = j := by
  cases i with
  | text a =>
    cases j with
    | text b =>
      have hlist := congrArg String.toList (Value.text.inj h)
      rw [String.toList_append, String.toList_append] at hlist
      exact congrArg Value.text (String.toList_injective (List.append_cancel_left hlist))
    | _ => cases hj
  | _ => cases hi

theorem ids_renumbered (first : Value) : ∀ (n : Nat) (l : List Choice),
    (Carried.renumbered first n l).map Choice.id = l.map fun c => Carried.carriedId c.id
  | _, [] => rfl
  | n, c :: l => by
    rw [Carried.renumbered, List.map_cons, List.map_cons, ids_renumbered first (n + 1) l]

theorem named_carriedFrom {source : Question} (h : Named Choice.id source.choices)
    (own : List Choice) (filter : CarryFilter) (answer : Value) :
    Named Choice.id (Carried.carriedFrom own filter source answer) := by
  have hpicked : Named Choice.id (Carried.picked filter source answer) := h.filter _
  have hkept := (hpicked.perm (sortedBy_perm Choice.index _)).filter fun c =>
    !(own.map Carried.valueText).contains (Carried.valueText c)
  rw [named_iff, Carried.carriedFrom, ids_renumbered]
  constructor
  · exact List.forall_mem_map.2 fun c _ => rfl
  · refine (List.nodup_map_iff_inj_on hkept.nodup.of_map).2 fun c hc c' hc' h => ?_
    have hid := carriedId_injective (hkept.texts c hc) (hkept.texts c' hc') h
    exact hkept.eq_of_id hc hc' hid

/-- Choices are carried under different ids. -/
theorem named_carriedChoices {survey : Survey}
    (hchoices : ∀ q ∈ survey.questions, Named Choice.id q.choices) (q : Question)
    (responses : Register Value) :
    Named Choice.id (Carried.carriedChoices q survey responses).1 := by
  unfold Carried.carriedChoices
  split
  · exact ⟨fun _ h => (nomatch h), .nil⟩
  · cases hfound : survey.question? q.carryFrom with
    | none => exact ⟨fun _ h => (nomatch h), .nil⟩
    | some source =>
      exact named_carriedFrom (hchoices source (List.mem_of_find?_eq_some hfound)) _ _ _

/-- Ids tell the visible choices of a question apart if they tell its own choices apart and no
visible one of them has the id of a visible carried one. -/
theorem choicesApart (hchoices : ∀ q ∈ r.survey.questions, Named Choice.id q.choices) {q : Question}
    (hq : q ∈ r.survey.questions)
    (hcarried : ∀ c ∈ q.choices, ∀ c' ∈ (Carried.carriedChoices q r.survey s.responses).1,
      (s.context r.survey).isChoiceVisible q c = true →
      (s.context r.survey).isChoiceVisible q c' = true → c.id ≠ c'.id) :
    r.ChoicesApart s q := by
  refine Named.perm ?_ (visibleChoices_perm q)
  rw [List.filter_append]
  have hown := (hchoices q hq).filter ((s.context r.survey).isChoiceVisible q)
  have hshown := (named_carriedChoices hchoices q s.responses).filter
    ((s.context r.survey).isChoiceVisible q)
  constructor
  · intro c hc
    rcases List.mem_append.1 hc with hc | hc
    · exact hown.texts c hc
    · exact hshown.texts c hc
  · rw [List.map_append]
    refine List.nodup_append'.2 ⟨hown.nodup, hshown.nodup, fun id hid hid' => ?_⟩
    obtain ⟨c, hc, rfl⟩ := List.mem_map.1 hid
    obtain ⟨c', hc', hname⟩ := List.mem_map.1 hid'
    obtain ⟨hmem, hvisible⟩ := List.mem_filter.1 hc
    obtain ⟨hmem', hvisible'⟩ := List.mem_filter.1 hc'
    exact hcarried c hmem c' hmem' hvisible hvisible' hname.symm

/-! ## Completeness -/

variable (r s) in
/-- Whether the id of the implicit group is free on a page: no visible group of the page has it, if
there are questions for the implicit one. -/
def StandaloneFree (p : Page) : Prop :=
  standalone (r.survey.questionsOnPage p.id) (r.survey.groupsOnPage p.id) ≠ [] →
    ∀ g ∈ r.survey.groupsOnPage p.id, (s.context r.survey).isVisible g.visibleIf = true →
      g.id ≠ standaloneId

variable (r s) in
/-- The own and the carried choices of a question that are visible. -/
def offered (q : Question) : List Choice :=
  (q.choices ++ (Carried.carriedChoices q r.survey s.responses).1).filter
    ((s.context r.survey).isChoiceVisible q)

variable (r s) in
/-- Whether the ids of carried choices are free in a question: no visible choice of its own has the
id of a visible carried one. -/
def CarriedFree (q : Question) : Prop :=
  ∀ c ∈ q.choices, ∀ c' ∈ (Carried.carriedChoices q r.survey s.responses).1,
    (s.context r.survey).isChoiceVisible q c = true →
      (s.context r.survey).isChoiceVisible q c' = true → c.id ≠ c'.id

/-- Rendering a visible page shows every visible question and every visible choice once. The page is
rendered if it is legible. The questions that are shown are, in some order, the visible ones, unless
a group has taken the id of the implicit group; and the choices of each are its visible own and
carried ones, unless an own one has taken the id of a carried one. -/
theorem page_shows_each_once (hquestions : Named Question.id r.survey.questions)
    (hgroups : Named Group.id r.survey.groups)
    (hchoices : ∀ q ∈ r.survey.questions, Named Choice.id q.choices) {pageId : Id}
    (hp : r.survey.page? pageId = some p) (d : Desk) (horders : Order.Tidy d.session.orders)
    (hvisible : (d.session.context r.survey).isVisible p.visibleIf = true) :
    (r.Legible d.session p → ∃ shown d', (r.page pageId).perform d = (.ok shown, d')) ∧
    ∀ shown d', (r.page pageId).perform d = (.ok shown, d') →
      (r.StandaloneFree d.session p →
        (shown.questions.map fun q => (q.id, q.variableName, q.kind)).Perm
          ((r.visibleQuestions d.session p).map fun q => (q.id, q.variableName, q.kind))) ∧
      ∀ rq ∈ shown.questions, ∃ q ∈ r.visibleQuestions d.session p, rq.id = q.id ∧
        (r.CarriedFree d.session q → (rq.choices.map fun c => (c.id, c.value)).Perm
          ((r.offered d.session q).map fun c => (c.id, c.value))) := by
  refine ⟨fun hlegible => exists_page hp hlegible horders, fun shown d' hperform => ?_⟩
  obtain ⟨gs, hgs, hsub, hperm⟩ := page_ensures hquestions hgroups hp hvisible d shown d'
    (.start horders) hperform
  constructor
  · intro hfree
    have hshown : shown.questions.Perm (gs.flatMap RenderedGroup.questions) :=
      (hperm (hgs.named hgroups hfree)).flatMap_right _
    refine (hgs.portrays.perm_shown hshown).map_perm fun q rq hlike => ?_
    rw [hlike.id, hlike.variableName, hlike.kind]
  · intro rq hrq
    obtain ⟨g, hg, hmem⟩ := List.mem_flatMap.1 hrq
    have hrq' : rq ∈ gs.flatMap RenderedGroup.questions := List.mem_flatMap.2 ⟨g, hsub g hg, hmem⟩
    obtain ⟨q, hq, hlike⟩ := hgs.portrays.exists_depicts hrq'
    have hmember : q ∈ r.survey.questions := mem_questionsOnPage (List.mem_filter.1 hq).1
    refine ⟨q, hq, hlike.id, fun hfree => ?_⟩
    have happart := choicesApart hchoices hmember hfree
    exact (hlike.choices happart).trans ((visibleChoices_perm q).map _)

end Renderer

/-! ## A page with carried choices -/

namespace Sample.Carrying

/-- A question about known brands, in a group. Its choices are put in random order. -/
def known : Question :=
  { BrandTracker.plainQuestion "q_known" "p" "KNOWN" .multipleChoice "Which brands do you know?" with
    groupId := .text "g"
    choiceOrder := .random
    choices := BrandTracker.choices "known" [("nike", "Nike"), ("puma", "Puma")] }

/-- A question about bought brands, which offers the known ones as well. -/
def bought : Question :=
  { BrandTracker.plainQuestion "q_bought" "p" "BOUGHT" .singleChoice "Which did you buy last?" with
    index := .int 1
    carryFrom := .text "q_known"
    choices := BrandTracker.choices "bought" [("none", "None of them")] }

/-- A group of questions on the page. -/
def group (id : String) : Group := ⟨.text id, .text "p", .int 0, .text "", none, .sequential⟩

/-- The page of the survey. -/
def brandsPage : Page := BrandTracker.plainPage "p" 0 "Brands"

/-- A survey of one page. -/
def onePage (groups : List Group) (questions : List Question) : Survey :=
  { BrandTracker.survey .null with
    pages := [brandsPage]
    groups := groups
    questions := questions
    jumpRules := []
    batteries := [] }

/-- The renderer of a survey outside any iteration. -/
def renderer (survey : Survey) : Renderer := ⟨survey, none, .sampled, false⟩

/-- A new session in which known brands were told. -/
def desk (brands : List String) : Desk :=
  let s : Session := .new (.text "s1") (.text "survey") ∅
  ⟨s.respond (.text "q_known") (.list (brands.map .text)), .ofScript [0], []⟩

theorem tidy_desk (brands : List String) : Order.Tidy (desk brands).session.orders := by
  intro key order horder
  have hnone : (∅ : Dict (List Id)).get? key = some order := horder
  rw [Dict.get?_empty] at hnone
  cases hnone

/-- The survey with one question in a group and one outside, and its renderer. -/
def sample : Renderer := renderer (onePage [group "g"] [known, bought])

/-- Two questions with rising indexes stand on the page in their order. -/
theorem questionsOnPage_pair {a b : Question} (groups : List Group) (ha : a.pageId = .text "p")
    (hb : b.pageId = .text "p") (hai : a.index = .int 0) (hbi : b.index = .int 1) :
    (onePage groups [a, b]).questionsOnPage (.text "p") = [a, b] := by
  have hon : ([a, b].filter fun q => q.pageId.equal (.text "p")) = [a, b] := by
    refine List.filter_eq_self.2 (List.forall_mem_cons.2 ⟨?_, List.forall_mem_singleton.2 ?_⟩)
    · rw [ha]
      decide
    · rw [hb]
      decide
  have hrising : [a, b].Pairwise fun x y => x.index.place ≤ y.index.place := by
    simp [hai, hbi, Value.place_int_le_iff]
  have hplaced : ([a, b].all fun q => q.index.isPlaced) = true := by
    simp [hai, hbi, Value.isPlaced, Value.isSized]
  show sortedBy Question.index ([a, b].filter _) = _
  rw [hon]
  exact sortedBy_of_pairwise hplaced hrising

theorem questionsOnPage : sample.survey.questionsOnPage (.text "p") = [known, bought] :=
  questionsOnPage_pair [group "g"] rfl rfl rfl rfl

theorem mem_choices {q : Question} {c : Choice}
    (hc : c ∈ (Carried.allChoices q sample.survey (desk ["puma"]).session.responses).1) :
    c ∈ q.choices ++
      (Carried.carriedChoices q sample.survey (desk ["puma"]).session.responses).1 :=
  ((sortedBy_perm Choice.index q.choices).append_right _).mem_iff.1 hc

theorem carried_bought :
    (Carried.carriedChoices bought sample.survey (desk ["puma"]).session.responses).1 =
      [⟨.text "cf_known_puma", .text "puma", .text "Puma", .int 1, none, .null, .null⟩] := by
  decide +kernel

/-- A choice without conditions, groups and weights is legible if its label is. -/
theorem legible_choice {c : Choice} {q : Question} (hid : c.id.isCompound = false)
    (hcondition : c.visibleIf = none) (hkey : c.groupKey = .null) (hweight : c.weight = .null)
    (hlabel : sample.Worded (desk ["puma"]).session c.label) :
    sample.LegibleChoice (desk ["puma"]).session q c where
  id := hid
  judged := ⟨true, by rw [hcondition]; rfl⟩
  groupJudged := fun g hg => by
    rw [Context.choiceGroupOf?, hkey] at hg
    cases hg
  worded := hlabel
  groupKey := by rw [hkey]; rfl
  weight := ⟨_, by rw [Order.weightOf, hweight]⟩

theorem legible_known : sample.LegibleQuestion (desk ["puma"]).session known where
  id := rfl
  judged := ⟨true, rfl⟩
  worded := ⟨"Which brands do you know?", by decide +kernel⟩
  indexes := by decide +kernel
  carriable := rfl
  choices := by
    intro c hc
    have hmem : c ∈ known.choices := by
      have hall := mem_choices hc
      have hnone : (Carried.carriedChoices known sample.survey
          (desk ["puma"]).session.responses).1 = [] := rfl
      rwa [hnone, List.append_nil] at hall
    rcases List.mem_cons.1 hmem with rfl | hmem
    · exact legible_choice rfl rfl rfl rfl ⟨"Nike", by decide +kernel⟩
    · cases List.mem_singleton.1 hmem
      exact legible_choice rfl rfl rfl rfl ⟨"Puma", by decide +kernel⟩

theorem legible_bought : sample.LegibleQuestion (desk ["puma"]).session bought where
  id := rfl
  judged := ⟨true, rfl⟩
  worded := ⟨"Which did you buy last?", by decide +kernel⟩
  indexes := by decide +kernel
  carriable := by decide +kernel
  choices := by
    intro c hc
    have hmem := mem_choices hc
    rw [carried_bought] at hmem
    rcases List.mem_cons.1 hmem with rfl | hmem
    · exact legible_choice rfl rfl rfl rfl ⟨"None of them", by decide +kernel⟩
    · cases List.mem_singleton.1 hmem
      exact legible_choice rfl rfl rfl rfl ⟨"Puma", by decide +kernel⟩

theorem legible :
    sample.Legible (desk ["puma"]).session brandsPage where
  id := rfl
  judged := ⟨true, rfl⟩
  worded := ⟨"Brands", by decide +kernel⟩
  questionIndexes := by
    show Value.areComparable ((sample.survey.questionsOnPage (.text "p")).map Question.index) = true
    rw [questionsOnPage]
    decide
  groupIndexes := by decide +kernel
  groupIds := by decide +kernel
  groups := by
    have hgroups : sample.survey.groupsOnPage (.text "p") = [group "g"] := by decide +kernel
    intro g hg
    cases List.mem_singleton.1 (hgroups ▸ hg)
    exact ⟨⟨true, rfl⟩, "", by decide +kernel⟩
  groupNames := by
    intro q hq
    rcases List.mem_cons.1 (questionsOnPage ▸ hq) with rfl | hq
    · rfl
    · cases List.mem_singleton.1 hq
      rfl
  questions := by
    intro q hq
    rcases List.mem_cons.1 (questionsOnPage ▸ hq) with rfl | hq
    · exact legible_known
    · cases List.mem_singleton.1 hq
      exact legible_bought

end Sample.Carrying

namespace Renderer

open Sample Sample.Carrying

/-- Two questions are shown, one of them with a choice of its own and one that is carried. -/
theorem page_shows_each_once_carrying :
    ∃ shown d', (sample.page (.text "p")).perform (desk ["puma"]) = (.ok shown, d') ∧
      (shown.questions.map RenderedQuestion.id).Perm [.text "q_known", .text "q_bought"] ∧
      ∀ rq ∈ shown.questions, rq.id = .text "q_bought" →
        (rq.choices.map fun c => (c.id, c.value)).Perm
          [(.text "bought_none", .text "none"), (.text "cf_known_puma", .text "puma")] := by
  have hquestions : Named Question.id sample.survey.questions := ⟨by decide, by decide⟩
  have hgroups : Named Group.id sample.survey.groups := ⟨by decide, by decide⟩
  have hchoices : ∀ q ∈ sample.survey.questions, Named Choice.id q.choices := by
    intro q hq
    rcases List.mem_cons.1 hq with rfl | hq
    · exact ⟨by decide, by decide⟩
    · cases List.mem_singleton.1 hq
      exact ⟨by decide, by decide⟩
  have hvisible : ((desk ["puma"]).session.context sample.survey).isVisible
      brandsPage.visibleIf = true := rfl
  have hpage : sample.survey.page? (.text "p") = some brandsPage := by
    decide +kernel
  obtain ⟨hresult, hall⟩ := page_shows_each_once hquestions hgroups hchoices hpage (desk ["puma"])
    (tidy_desk _) hvisible
  obtain ⟨shown, d', hperform⟩ := hresult legible
  obtain ⟨hperm, heach⟩ := hall shown d' hperform
  have hseen : sample.visibleQuestions (desk ["puma"]).session
      brandsPage = [known, bought] := by
    rw [visibleQuestions]
    show (sample.survey.questionsOnPage (.text "p")).filter _ = _
    rw [questionsOnPage]
    decide +kernel
  rw [hseen] at hperm heach
  refine ⟨shown, d', hperform, ?_, fun rq hrq hid => ?_⟩
  · have hfree : sample.StandaloneFree (desk ["puma"]).session
        brandsPage := fun _ => by decide +kernel
    have hids := (hperm hfree).map Prod.fst
    rw [List.map_map] at hids
    exact hids
  · obtain ⟨q, hq, hname, hoffered⟩ := heach rq hrq
    have hbought : q = bought := by
      rcases List.mem_cons.1 hq with rfl | hq
      · rw [hid] at hname
        exact absurd hname (by decide)
      · exact List.mem_singleton.1 hq
    subst hbought
    have hfree : sample.CarriedFree (desk ["puma"]).session bought := by
      intro c hc c' hc' _ _
      rw [carried_bought] at hc'
      cases List.mem_singleton.1 hc
      cases List.mem_singleton.1 hc'
      decide
    have hpairs : (sample.offered (desk ["puma"]).session bought).map (fun c => (c.id, c.value)) =
        [(.text "bought_none", .text "none"), (.text "cf_known_puma", .text "puma")] := by
      decide +kernel
    exact hpairs ▸ hoffered hfree

end Renderer

/-! ## Ids that are taken -/

namespace Sample.TakenId

open Carrying

/-- A choice with a value and an id of its own. -/
def choice (id value label : String) : Choice :=
  ⟨.text id, .text value, .text label, .int 0, none, .null, .null⟩

/-- The first question of the page. -/
def first : Question :=
  { BrandTracker.plainQuestion "q1" "p" "Q1" .singleChoice "" with choices := [choice "a" "1" "One"] }

/-- The second question of the page. -/
def second : Question :=
  { BrandTracker.plainQuestion "q2" "p" "Q2" .singleChoice "" with index := .int 1 }

/-- The first question in a group with the id of the implicit one. -/
def grouped : Question := { first with groupId := .text "standalone" }

/-- The second question with a choice that has the id of the one that it carries from the first. -/
def carrier : Question :=
  { second with
    carryFrom := .text "q1"
    carryFilter := .all
    choices := [choice "cf_a" "2" "Two"] }

/-- A page with a group that has the id of the implicit one. -/
def groupTaken : Renderer := renderer (onePage [group "standalone"] [grouped, second])

/-- A page with a choice that has the id of a carried one. -/
def choiceTaken : Renderer := renderer (onePage [] [first, carrier])

theorem onPage_groupTaken : groupTaken.survey.questionsOnPage brandsPage.id = [grouped, second] :=
  questionsOnPage_pair [group "standalone"] rfl rfl rfl rfl

theorem onPage_choiceTaken : choiceTaken.survey.questionsOnPage brandsPage.id = [first, carrier] :=
  questionsOnPage_pair [] rfl rfl rfl rfl

end Sample.TakenId

namespace Renderer

open Sample Sample.Carrying Sample.TakenId

/-- A visible group that has the id of the implicit one is lost: the questions without a group are
shown in its place as well, and its own are not shown at all. -/
theorem standalone_id_taken :
    ¬∀ (r : Renderer) (pageId : Id) (p : Page) (d d' : Desk) (shown : RenderedPage),
      Named Question.id r.survey.questions → Named Group.id r.survey.groups →
      (∀ q ∈ r.survey.questions, Named Choice.id q.choices) →
      r.survey.page? pageId = some p → Order.Tidy d.session.orders →
      (d.session.context r.survey).isVisible p.visibleIf = true →
      (r.page pageId).perform d = (.ok shown, d') →
      (shown.questions.map RenderedQuestion.id).Perm
        ((r.visibleQuestions d.session p).map Question.id) := by
  intro h
  have hpage : groupTaken.survey.page? (.text "p") = some brandsPage := by decide +kernel
  have hshown : ((groupTaken.page (.text "p")).perform (desk [])).1.map
      (fun shown => shown.questions.map RenderedQuestion.id) =
      .ok [.text "q2", .text "q2"] := by
    simp only [Renderer.page, hpage, Renderer.groups, onPage_groupTaken]
    decide +kernel
  have hvisible : (groupTaken.visibleQuestions (desk []).session brandsPage).map Question.id =
      [.text "q1", .text "q2"] := by
    rw [visibleQuestions, onPage_groupTaken]
    decide +kernel
  have hquestions : ∀ q ∈ groupTaken.survey.questions, Named Choice.id q.choices := by
    intro q hq
    rcases List.mem_cons.1 hq with rfl | hq
    · exact ⟨by decide, by decide⟩
    · cases List.mem_singleton.1 hq
      exact ⟨by decide, by decide⟩
  rcases hperform : (groupTaken.page (.text "p")).perform (desk []) with ⟨e | shown, d'⟩ <;>
    rw [hperform] at hshown
  · cases hshown
  have hperm := h groupTaken (.text "p") brandsPage (desk []) d' shown ⟨by decide, by decide⟩
    ⟨by decide, by decide⟩ hquestions hpage (tidy_desk []) rfl hperform
  rw [hvisible] at hperm
  have hmem : Value.text "q1" ∈ shown.questions.map RenderedQuestion.id :=
    hperm.mem_iff.2 (.head _)
  have hids : shown.questions.map RenderedQuestion.id = [.text "q2", .text "q2"] :=
    Except.ok.inj hshown
  rw [hids] at hmem
  exact absurd hmem (by decide)

/-- A visible choice that has the id of a carried one is lost: the carried one is shown in its place
as well. -/
theorem carried_id_taken :
    ¬∀ (r : Renderer) (pageId : Id) (p : Page) (d d' : Desk) (shown : RenderedPage),
      Named Question.id r.survey.questions → Named Group.id r.survey.groups →
      (∀ q ∈ r.survey.questions, Named Choice.id q.choices) →
      r.survey.page? pageId = some p → Order.Tidy d.session.orders →
      (d.session.context r.survey).isVisible p.visibleIf = true →
      (r.page pageId).perform d = (.ok shown, d') →
      ∀ rq ∈ shown.questions, ∃ q ∈ r.visibleQuestions d.session p, rq.id = q.id ∧
        (rq.choices.map RenderedChoice.value).Perm
          ((r.offered d.session q).map Choice.value) := by
  intro h
  have hpage : choiceTaken.survey.page? (.text "p") = some brandsPage := by decide +kernel
  have hshown : ((choiceTaken.page (.text "p")).perform (desk [])).1.map
      (fun shown => shown.questions.map fun q => (q.id, q.choices.map RenderedChoice.value)) =
      .ok [(.text "q1", [.text "1"]), (.text "q2", [.text "1", .text "1"])] := by
    simp only [Renderer.page, hpage, Renderer.groups, onPage_choiceTaken]
    decide +kernel
  have hoffered : (choiceTaken.offered (desk []).session carrier).map Choice.value =
      [.text "2", .text "1"] := by
    decide +kernel
  have hquestions : ∀ q ∈ choiceTaken.survey.questions, Named Choice.id q.choices := by
    intro q hq
    rcases List.mem_cons.1 hq with rfl | hq
    · exact ⟨by decide, by decide⟩
    · cases List.mem_singleton.1 hq
      exact ⟨by decide, by decide⟩
  rcases hperform : (choiceTaken.page (.text "p")).perform (desk []) with ⟨e | shown, d'⟩ <;>
    rw [hperform] at hshown
  · cases hshown
  have heach := h choiceTaken (.text "p") brandsPage (desk []) d' shown ⟨by decide, by decide⟩
    ⟨by decide, by decide⟩ hquestions hpage (tidy_desk []) rfl hperform
  have hpairs : (shown.questions.map fun q => (q.id, q.choices.map RenderedChoice.value)) =
      [(.text "q1", [.text "1"]), (.text "q2", [.text "1", .text "1"])] := Except.ok.inj hshown
  have hmem : (Value.text "q2", [Value.text "1", Value.text "1"]) ∈
      shown.questions.map fun q => (q.id, q.choices.map RenderedChoice.value) := by
    rw [hpairs]
    decide
  obtain ⟨rq, hrq, hpair⟩ := List.mem_map.1 hmem
  obtain ⟨hid, hvalues⟩ := Prod.mk.inj hpair
  obtain ⟨q, hq, hname, hperm⟩ := heach rq hrq
  have hcarrier : q = carrier := by
    have honPage := (List.mem_filter.1 hq).1
    rw [onPage_choiceTaken] at honPage
    rcases List.mem_cons.1 honPage with rfl | honPage
    · rw [hid] at hname
      exact absurd hname (by decide)
    · exact List.mem_singleton.1 honPage
  rw [hvalues, hcarrier, hoffered] at hperm
  exact absurd (hperm.mem_iff.2 (.head _)) (by decide)

end Renderer

end Questionnaire
