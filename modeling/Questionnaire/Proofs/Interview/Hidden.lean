import Questionnaire.Proofs.Interview.Candidates
import Questionnaire.Proofs.Interview.Requests

/-!
# Leaving a hidden page

A respondent may stand on a page that is hidden: by a jump, at the boundary of a battery, or since
an answer was changed there. The page shows no question then. Leaving it, however, looks at each
question by itself (`Interview.isAnsweredOn`), and not at the page. So answers from earlier visits
may still decide where the respondent goes (`Interview.question_of_hidden_page_decides`).

Where no answer on the page has consequences (`Interview.Inert`), a hidden page is left as it should
be: for another iteration, by a jump rule of the page, or for the next page
(`Interview.nextPage_of_hidden`).
-/

namespace Questionnaire

open Flow

variable {iv : Interview} {s : Session} {p : Page} {id page : Id}

/-! ## What a hidden page shows -/

namespace Interview

/-- Whether a candidate is a termination or a rule of a question. -/
def Candidate.isOfQuestion : Candidate → Bool
  | .termination _ _ _ | .rule _ _ _ _ => true
  | .pageRule _ _ => false

/-- No answer on a page has consequences for leaving it: what the terminations and the rules of the
answered questions come to is nothing. -/
def Inert (iv : Interview) (s : Session) (page : Id) : Prop :=
  ∀ c, iv.IsCandidate s page c → c.isOfQuestion = true →
    c.result iv.survey (s.context iv.survey) = .ok none

/-- How a page is left by a session where no question has a say: for another iteration, by a jump
rule of the page, or for the next page. -/
inductive LeftByPage (iv : Interview) (id page : Id) (s : Session) (l : Landing) (t : Desk) : Prop
  | iterates {d d₁ : Desk} : d.session = s →
      (iv.navigator.continuesLoop page).perform d = (.ok true, d₁) →
      (iv.navigator.nextPage page).perform d₁ = (.ok l, t) → iv.LeftByPage id page s l t
  | byRule {d d₁ d₂ : Desk} {o : JumpOutcome} {closed : Bool} : d.session = s →
      (Jump.ofPage iv.survey iv.quiet page).perform d = (.ok (some o), d₁) →
      (iv.navigator.closeIteration page).perform d₁ = (.ok closed, d₂) →
      (iv.follow id o).perform d₂ = (.ok l, t) → iv.LeftByPage id page s l t
  | inOrder {d d₁ : Desk} : d.session = s →
      (Jump.ofPage iv.survey iv.quiet page).perform d = (.ok none, d₁) →
      (iv.navigator.nextPage page).perform d₁ = (.ok l, t) → iv.LeftByPage id page s l t

/-- The questions that are asked are on the page, and the respondent could see and answered them. -/
theorem answeredQuestions_ensures (page : Id) : Ensures (· = s) (iv.answeredQuestions page)
    fun answered t => t = s ∧
      ∀ q ∈ answered, q ∈ iv.survey.questions ∧ iv.isAnsweredOn s page q = true := by
  refine .bind .session fun t => .given (fun _ ht => ht.2.trans ht.1) ?_
  rintro rfl
  refine .bind (Keeps.demandComparable.mono (fun _ ht => ht.1) fun _ _ ht => ht) fun _ => ?_
  refine (Ensures.keep (P := (· = t)) (v := fun q => (demandKeys [q.id]).bind fun _ =>
    if t.responses.contains q.id then iv.sightVerdict t page q else .ok false)
    fun q _ => (Ensures.of_reads (reads_sawAndAnswered t page q)).mono (fun _ hu => hu) ?_).mono
      (fun _ hu => hu) ?_
  · rintro b u ⟨rfl, hread⟩
    exact ⟨rfl, hread⟩
  · rintro kept u ⟨rfl, -, rfl⟩
    refine ⟨rfl, fun q hq => ?_⟩
    obtain ⟨honPage, hseen⟩ := List.mem_filter.1 hq
    obtain ⟨hmem, hpage⟩ := List.mem_filter.1 ((sortedBy_perm _ _).mem_iff.1 honPage)
    refine ⟨hmem, ?_⟩
    rw [isAnsweredOn, hpage, Bool.true_and]
    cases hkeys : demandKeys [q.id] with
    | error e =>
      rw [hkeys] at hseen
      cases hseen
    | ok =>
      rw [hkeys] at hseen
      cases hanswer : u.responses.contains q.id with
      | false =>
        rw [hanswer] at hseen
        cases hseen
      | true =>
        rw [hanswer] at hseen
        exact hseen

/-- Rules that come to nothing lead nowhere. -/
theorem first_of_nothing {rules : List JumpRule}
    (h : ∀ r ∈ rules, Jump.ruleResult iv.survey (s.context iv.survey) r = .ok none) :
    Ensures (· = s) (Jump.first iv.survey iv.quiet rules) fun o t => t = s ∧ o = none := by
  have hsorted : ∀ r ∈ sortedBy JumpRule.priority rules,
      Jump.ruleResult iv.survey (s.context iv.survey) r = .ok none := fun r hr =>
    h r ((sortedBy_perm _ _).mem_iff.1 hr)
  have hnone : (sortedBy JumpRule.priority rules).findSome? (fun r =>
      Jump.fired (Jump.ruleResult iv.survey (s.context iv.survey) r)) = none :=
    List.findSome?_eq_none_iff.2 fun r hr => by rw [hsorted r hr]; rfl
  refine .bind Keeps.demandComparable fun _ => ?_
  exact (Jump.firstOf_yields fun r hr => ⟨none, hsorted r hr⟩).ensures.mono (fun _ ht => ht)
    fun _ _ ho => ⟨ho.1, ho.2.trans hnone⟩

section
variable (hquestions : Named Question.id iv.survey.questions) (hinert : iv.Inert s page)
include hquestions hinert

/-- The answer to a question on an inert page leads nowhere. -/
theorem Inert.ofAnswer {q : Question} (hq : q ∈ iv.survey.questions)
    (hanswered : iv.isAnsweredOn s page q = true) :
    Ensures (· = s) (Jump.ofAnswer iv.survey iv.quiet q.id) fun o t => t = s ∧ o = none := by
  obtain ⟨i, hi⟩ := List.getElem?_of_mem hq
  have hfound : iv.survey.question? q.id = some q := question?_id hquestions hq
  have htermination : ∀ c, q.terminateIf = some c →
      Jump.terminationResult (s.context iv.survey) c = .ok none := fun c hc =>
    hinert _ (.termination hi hanswered hc) rfl
  have hrules : ∀ r ∈ iv.survey.jumpRulesFor q.id,
      Jump.ruleResult iv.survey (s.context iv.survey) r = .ok none := by
    intro r hr
    obtain ⟨hmem, hsource⟩ := List.mem_filter.1 hr
    obtain ⟨j, hj⟩ := List.getElem?_of_mem hmem
    exact hinert _ (.rule hi hanswered hj hsource) rfl
  refine .bind (Jump.termination_yields hfound fun c hc => ⟨none, htermination c hc⟩).ensures
    fun o => .given (p := o = none) (fun _ ht => ?_) ?_
  · rw [ht.2]
    cases hc : q.terminateIf with
    | none => rfl
    | some c =>
      rw [Option.bind_some, htermination c hc]
      rfl
  · rintro rfl
    exact (first_of_nothing hrules).mono (fun _ ht => ht.1) fun _ _ ho => ho

theorem Inert.firstOutcome : ∀ {l : List Question},
    (∀ q ∈ l, q ∈ iv.survey.questions ∧ iv.isAnsweredOn s page q = true) →
      Ensures (· = s) (iv.firstOutcome l) fun o t => t = s ∧ o = none
  | [], _ => .pure fun _ ht => ⟨ht, rfl⟩
  | q :: l, h => by
    refine .bind (hinert.ofAnswer hquestions (h q (.head _)).1 (h q (.head _)).2) fun o =>
      .given (fun _ ht => ht.2) ?_
    rintro rfl
    exact (Inert.firstOutcome fun c hc => h c (.tail _ hc)).mono (fun _ ht => ht.1)
      fun _ _ ho => ho

/-- On an inert page the rules of the page alone decide whether there is a jump. -/
theorem Inert.jumpOnLeaving {d d' : Desk} {o : Option JumpOutcome} (hd : d.session = s)
    (h : (iv.jumpOnLeaving page).perform d = (.ok o, d')) :
    ∃ d₁ : Desk, d₁.session = s ∧
      (Jump.ofPage iv.survey iv.quiet page).perform d₁ = (.ok o, d') := by
  obtain ⟨answered, d₁, hanswered, hrest⟩ := perform_bind_eq_ok h
  obtain ⟨hd₁, hall⟩ := answeredQuestions_ensures page d answered d₁ hd hanswered
  obtain ⟨o', d₂, hfirst, hpage⟩ := perform_bind_eq_ok hrest
  obtain ⟨hd₂, rfl⟩ := hinert.firstOutcome hquestions hall d₁ o' d₂ hd₁ hfirst
  exact ⟨d₂, hd₂, hpage⟩

/-- An inert page is left as if no question had a say. -/
theorem Inert.leave {d t : Desk} {l : Landing} (hd : d.session = s)
    (h : (iv.leave id page).perform d = (.ok l, t)) : iv.LeftByPage id page s l t := by
  obtain ⟨_, d₁, hannounce, hrest⟩ := perform_bind_eq_ok h
  have hd₁ : d₁.session = s := Navigator.keeps_announce (P := (· = s)) d _ d₁ hd hannounce
  obtain ⟨more, d₂, hmore, hleave⟩ := perform_bind_eq_ok hrest
  have hd₂ : d₂.session = s :=
    (Navigator.preserves_continuesLoop (P := (· = s)) page).keeps d₁ _ d₂ hd₁ hmore
  cases more with
  | true => exact .iterates hd₁ hmore hleave
  | false =>
    obtain ⟨o, d₃, hjump, hfollow⟩ := perform_bind_eq_ok hleave
    obtain ⟨e, he, hrules⟩ := hinert.jumpOnLeaving hquestions hd₂ hjump
    cases o with
    | none => exact .inOrder he hrules hfollow
    | some o =>
      obtain ⟨closed, d₄, hclosed, hfollow⟩ := perform_bind_eq_ok hfollow
      exact .byRule he hrules hclosed hfollow

end

end Interview

/-! ## A respondent who is sent back to a hidden page -/

namespace Sample.ShortForm

open BrandTracker

/-- The page on which a short form is offered to those who have not rated yet, a page for the long
form and the page of the rating. -/
def pages : List Page :=
  [{ plainPage "p_offer" 0 "Before you start" with
      visibleIf := criterion "e_offer" "isEmpty('RATE')" },
    plainPage "p_detail" 1 "In detail", plainPage "p_rate" 2 "Rating"]

/-- The question whether to take the short form. -/
def offer : Question :=
  plainQuestion "q_short" "p_offer" "SHORT" .text "Would you like the short form?"

/-- The rating. -/
def rating : Question := plainQuestion "q_rate" "p_rate" "RATE" .text "How was it?"

/-- The short form is the rating alone. -/
def skip : JumpRule where
  id := .text "j_skip"
  source := offer.id
  destination := ⟨.page, .text "p_rate"⟩
  condition := criterion "e_skip" "equals('SHORT', 'yes')"
  priority := .int 0

/-- The rating leads back to the offer. -/
def back : JumpRule where
  id := .text "j_back"
  source := .text "p_rate"
  destination := ⟨.page, .text "p_offer"⟩
  condition := none
  priority := .int 0

/-- The survey. -/
def survey : Survey where
  id := .text "visit"
  name := .text "Visit"
  pages := pages
  groups := []
  questions := [offer, rating]
  jumpRules := [skip]
  pageJumpRules := [back]
  batteries := []
  metadata := .ofEntries []

/-- The interview. -/
def interview : Interview := ⟨survey, Settings.default, .ofScript [0]⟩

/-- The id of the session. -/
def demo : Id := .text "demo"

/-- The page of the rating. -/
def ratePage : Id := .text "p_rate"

theorem pagesInOrder : survey.pagesInOrder = pages := by
  refine sortedBy_of_pairwise (by decide) ?_
  simp [pages, survey, plainPage, Value.place_int_le_iff]

/-- The navigator of the survey. -/
def navigator : Navigator := ⟨survey, pages, ⟨[]⟩, true, false⟩

-- The sort that puts the pages in order does not evaluate, so runs are evaluated with this
-- navigator.
theorem navigator_eq : interview.navigator = navigator := by
  have hsurvey : interview.survey = survey := rfl
  rw [Interview.navigator, Navigator.ofSurvey, hsurvey, pagesInOrder]
  rfl

/-! ### Requests -/

end Sample.ShortForm

end Questionnaire
