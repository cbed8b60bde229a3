import Questionnaire.Proofs.Interview.Position
import Questionnaire.Proofs.Route.Restarting

/-!
# Leaving a page without jumping

A respondent who leaves the end page of a battery for another iteration is not sent elsewhere:
neither a termination nor a jump is looked for (`Interview.leave`). Whether there is another
iteration is asked beforehand, by the cursor alone, while the step itself passes over stale items.
The two agree as long as the items behind the cursor are not all stale
(`continuesLoop_iff_restarts`). Where they are, the question is answered yes, the respondent gets to
the pages behind the battery, and what would have ended the survey is not looked for
(`continuesLoop_of_stale_rest`).
-/

namespace Questionnaire

open Flow

namespace Interview

variable {iv : Interview} {d : Desk} {page : Id}

/-- Another iteration is announced exactly if leaving the page leads to one, and no jump is looked
for only if it does, unless all items behind the cursor are stale. -/
theorem continuesLoop_iff_restarts (htyped : iv.survey.Typed)
    (hids : (iv.survey.pages.map Page.id).Nodup)
    (hindexes : (iv.survey.pages.map Page.index).Nodup) (hs : d.session.PlansTyped)
    (hlive : ∀ b p c, iv.navigator.roles.roleOf? page = some (b, .finish) →
      d.session.plan? b.id = some p → p.CursorAt c → c + 1 < p.items.length →
      ∃ item ∈ p.items.drop (c + 1),
        item.key.isAmong (Planning.liveKeys b iv.survey d.session.responses) = true) :
    (((iv.navigator.continuesLoop page).perform d).1 = .ok true ↔
      ∃ l d', (iv.navigator.nextPage page).perform d = (.ok l, d') ∧
        iv.navigator.Restarts d.session page l) ∧
    ∀ id l d', (iv.leave id page).perform d = (.ok l, d') →
      ((iv.navigator.continuesLoop page).perform d).1 = .ok true →
        iv.navigator.Restarts d.session page l := by
  have h : iv.navigator.Oriented := .ofSurvey htyped hids hindexes _ _
  have hnext : iv.navigator.HasNext d.session page ↔ iv.navigator.HasLiveNext d.session page := by
    constructor
    · rintro ⟨b, p, c, hrole, hp, hc, hlt⟩
      exact ⟨b, p, c, hrole, hp, hc, hlive b p c hrole hp hc hlt⟩
    · rintro ⟨b, p, c, hrole, hp, hc, item, hitem, -⟩
      have hpos := List.length_pos_of_mem hitem
      rw [List.length_drop] at hpos
      exact ⟨b, p, c, hrole, hp, hc, by omega⟩
  refine ⟨?_, fun id l d' hleave hmore => ?_⟩
  · rw [h.continuesLoop_iff hs, h.nextPage_restarts_iff hs, hnext]
  have hmore := (h.continuesLoop_iff hs page).1 hmore
  have hrestarts : Ensures (· = d.session) (iv.leave id page) fun l _ =>
      iv.navigator.Restarts d.session page l := by
    refine .bind Navigator.keeps_announce fun _ => .bind (h.continuesLoop_tells hs page)
      fun more => .given (fun _ ht => ht.2.2 hmore) fun hyes => ?_
    subst hyes
    exact (h.nextPage_restarts hs (hnext.1 hmore)).mono (fun _ ht => ht.1) fun _ _ hl => hl
  exact hrestarts d l d' rfl hleave

end Interview

namespace Sample.BrandTracker

/-- The interview about the sample survey. -/
def interview : Interview := ⟨survey (.int 2), Settings.default, .ofScript [0]⟩

/-- The plan over the two brands that the respondent has heard of, at the first of them. -/
def brandsPlan : LoopPlan :=
  ⟨brands.id, Planning.sourceItems brands (survey (.int 2)) aware.responses, .int 0⟩

/-- The respondent on the pages about the first brand. -/
def midway : Session := aware.setPlan brands.id brandsPlan

/-- The respondent once the second brand is taken back. -/
def lapsed : Session := midway.respond (.text "q_aware") (.list [.text "nike"])

theorem navigator_interview : interview.navigator = navigator := ofSurvey_survey

theorem roleOf?_endPage :
    interview.navigator.roles.roleOf? brands.endPageId = some (brands, .finish) := by
  rw [navigator_interview]
  decide +kernel

theorem cursorAt_brandsPlan : brandsPlan.CursorAt 0 := ⟨rfl, Nat.zero_le _⟩

theorem plan?_midway {id : Id} {p : LoopPlan} (hp : midway.plan? id = some p) : p = brandsPlan := by
  rw [midway, Session.plan?_setPlan] at hp
  split at hp
  · exact (Option.some.inj hp).symm
  · have hnew : aware.plan? id = none := Register.get?_empty id
    cases hnew.symm.trans hp

theorem plansTyped_midway : midway.PlansTyped where
  cursor id p hp := by
    cases plan?_midway hp
    exact ⟨0, cursorAt_brandsPlan⟩
  keys id p hp := by
    cases plan?_midway hp
    decide

theorem plansTyped_lapsed : lapsed.PlansTyped := ⟨plansTyped_midway.cursor, plansTyped_midway.keys⟩

end Sample.BrandTracker

open Sample BrandTracker in
/-- The respondent leaves the pages about the first brand for those about the second one. -/
theorem Interview.continuesLoop_iff_restarts_midway :
    ((interview.navigator.continuesLoop brands.endPageId).perform ⟨midway, .ofScript [], []⟩).1 =
        .ok true ∧
      ∃ l d', (interview.navigator.nextPage brands.endPageId).perform ⟨midway, .ofScript [], []⟩ =
          (.ok l, d') ∧
        interview.navigator.Restarts midway brands.endPageId l := by
  have hmore : ((interview.navigator.continuesLoop brands.endPageId).perform
      ⟨midway, .ofScript [], []⟩).1 = .ok true := by
    rw [navigator_interview]
    decide +kernel
  have hlive : ∀ b p c, interview.navigator.roles.roleOf? brands.endPageId = some (b, .finish) →
      midway.plan? b.id = some p → p.CursorAt c → c + 1 < p.items.length →
      ∃ item ∈ p.items.drop (c + 1),
        item.key.isAmong (Planning.liveKeys b interview.survey midway.responses) = true := by
    intro b p c hrole hp hc _
    cases roleOf?_endPage.symm.trans hrole
    cases plan?_midway hp
    cases hc.unique cursorAt_brandsPlan
    decide +kernel
  obtain ⟨hiff, -⟩ := @continuesLoop_iff_restarts interview ⟨midway, .ofScript [], []⟩
    brands.endPageId typed distinct.pageIds distinct.pageIndexes plansTyped_midway hlive
  exact ⟨hmore, hiff.1 hmore⟩

open Sample BrandTracker in
/-- With the second brand taken back, another iteration is announced, and there is none. -/
theorem Navigator.continuesLoop_of_stale_rest :
    let nav := interview.navigator
    ((nav.continuesLoop brands.endPageId).perform ⟨lapsed, .ofScript [], []⟩).1 = .ok true ∧
      ¬∃ l d', (nav.nextPage brands.endPageId).perform ⟨lapsed, .ofScript [], []⟩ = (.ok l, d') ∧
        nav.Restarts lapsed brands.endPageId l := by
  intro nav
  have h : nav.Oriented := .ofSurvey typed distinct.pageIds distinct.pageIndexes _ _
  have hrole : nav.roles.roleOf? brands.endPageId = some (brands, .finish) := roleOf?_endPage
  constructor
  · refine (h.continuesLoop_iff plansTyped_lapsed _).2
      ⟨brands, brandsPlan, 0, hrole, ?_, cursorAt_brandsPlan, ?_⟩ <;> decide +kernel
  · rw [h.nextPage_restarts_iff plansTyped_lapsed]
    rintro ⟨b, p, c, hrole', hp, hc, hlive⟩
    cases hrole.symm.trans hrole'
    cases plan?_midway hp
    cases hc.unique cursorAt_brandsPlan
    revert hlive
    decide +kernel

end Questionnaire
