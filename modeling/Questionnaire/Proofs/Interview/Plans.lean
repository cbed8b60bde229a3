import Questionnaire.Proofs.Interview.Keeping
import Questionnaire.Proofs.Interview.Reachable
import Questionnaire.Sample.BrandTracker

/-!
# Stored plans match the answers

A plan is made by navigation, from the answers of that moment, and dropped when an answer that it
was made from changes. The two never meet: what makes the plans of a stored session fit its answers
at all times (`stored_plan_fits`) is that an answer which does not count as changed leaves the
source items as they were, up to their order, and an answer which does count as changed drops every
plan whose source items it could change (`Session.Fitted.respond`).
-/

namespace Questionnaire

open Flow

/-- A session whose answers are texts and lists of texts, and whose plans fit them. -/
structure Session.Sound (survey : Survey) (s : Session) : Prop where
  answers : ∀ id v, s.responses.get? id = some v → v.isAnswer = true
  fitted : s.Fitted survey

namespace Session

variable {survey : Survey} {s t : Session} {questionId : Id} {answer : Value}

/-- After a new answer, plans fit if they are plans from before and not made from that answer. -/
theorem Fitted.respond (h : s.Fitted survey)
    (hresponses : t.responses = (s.respond questionId answer).responses)
    (hkept : ∀ id p, t.plan? id = some p → s.plan? id = some p)
    (hdropped : ∀ b ∈ survey.batteriesSourcedFrom questionId, t.plan? b.id = none) :
    t.Fitted survey := by
  intro b hb p hp
  by_cases hsourced : b ∈ survey.batteriesSourcedFrom questionId
  · rw [hdropped b hsourced] at hp
    cases hp
  · have hitems : Planning.sourceItems b survey (s.responses.set questionId answer) =
        Planning.sourceItems b survey s.responses := Planning.sourceItems_set_of_not_mem hb hsourced
    rw [hresponses]
    exact (h b hb p (hkept _ _ hp)).of_perm (.of_eq hitems.symm)

end Session

namespace Interview

variable {iv : Interview}

end Interview

/-! ## The sizes of plans -/

namespace Sample.OneStore

/-- A battery over the pages about a single store. -/
def battery : Battery :=
  { BrandTracker.stores .null with
    rows := [BrandTracker.store "oxford_st" "Oxford Street" "London" true 0] }

/-- Its pages. -/
def pages : List Page :=
  [BrandTracker.plainPage "p_store_visit" 3 "Stores",
    BrandTracker.plainPage "p_store_rate" 4 "Rating"]

/-- The brand tracker cut down to the pages about a single store. -/
def survey : Survey :=
  { BrandTracker.survey .null with
    pages := pages, questions := [], jumpRules := [], batteries := [battery] }

/-- The interview. -/
def interview : Interview := ⟨survey, Settings.default, .ofScript [0]⟩

/-- A new session. -/
def session : Session := .new (.text "demo") survey.id ∅

theorem pagesInOrder : survey.pagesInOrder = pages := by
  refine sortedBy_of_pairwise (by decide) ?_
  simp [pages, survey, BrandTracker.plainPage, Value.place_int_le_iff]

theorem batteryPages : survey.batteryPages? battery = some (pages.map Page.id) := by
  have hpages : survey.pagesBetween (pages[0]) (pages[1]) = pages := by
    rw [Survey.pagesBetween, pagesInOrder]
    simp [pages, BrandTracker.plainPage, Value.atMost_int]
  have hbefore : (pages[0]).isBefore (pages[1]) = true := by
    simp [Page.isBefore, pages, BrandTracker.plainPage, Value.atMost_int]
  have hstart : survey.page? battery.startPageId = some pages[0] := by decide
  have hend : survey.page? battery.endPageId = some pages[1] := by decide
  simp only [Survey.batteryPages?, hstart, hend, hbefore, if_true, hpages]

theorem verdict : (⟨[]⟩ : RoleTable).verdict survey battery = .accepted (pages.map Page.id) := by
  simp only [RoleTable.verdict, batteryPages]
  rfl

/-- The navigator of the survey. -/
def navigator : Navigator := ⟨survey, pages, ⟨[⟨battery, pages.map Page.id⟩]⟩, true, false⟩

theorem navigator_eq : interview.navigator = navigator := by
  have hsurvey : interview.survey = survey := rfl
  have hbatteries : survey.batteries = [battery] := rfl
  rw [Interview.navigator, Navigator.ofSurvey, hsurvey, pagesInOrder]
  simp only [RoleTable.ofSurvey, hbatteries, RoleTable.addAll, RoleTable.add, verdict,
    List.nil_append]
  rfl

theorem announce (d : Desk) : navigator.announce.perform d = (.ok (), d) := by
  have hstart : survey.page? battery.startPageId = some pages[0] := by decide
  have hend : survey.page? battery.endPageId = some pages[1] := by decide
  have hdemand : (⟨[]⟩ : RoleTable).demandVerdict survey battery = .ok () := by
    simp only [RoleTable.demandVerdict, hstart, hend, batteryPages, verdict]
    rfl
  have hbatteries : survey.batteries = [battery] := rfl
  have hcomparable :
      (Flow.demandComparable (survey.pages.map Page.index)).perform d = (.ok (), d) :=
    rfl
  have hkeys : (Flow.demandKeys (survey.pages.map Page.id)).perform d = (.ok (), d) := rfl
  simp only [navigator, Navigator.announce, RoleTable.announce, RoleTable.announceAll, hbatteries,
    perform_bind, hcomparable, hkeys, hdemand, perform_ofResult, RoleTable.eventsOf, verdict,
    perform_logAll, List.append_nil, perform_pure]

/-- The plan of the battery. -/
def plan : LoopPlan := ⟨battery.id, battery.rows.map Planning.rowItem, .int 0⟩

/-- The session once it is placed on its first page. -/
def started : Session :=
  { session with
    plans := session.plans.set battery.id plan
    currentPage := some (.text "p_store_visit")
    history := [.text "p_store_visit"] }

end Sample.OneStore

end Questionnaire
