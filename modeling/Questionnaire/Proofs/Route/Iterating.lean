import Questionnaire.Proofs.Route.Separation

/-!
# Iterating over live items

An item of a plan is live if its key is among those of the battery's source items under the present
answers, and stale otherwise. Leaving the end page of a battery forward starts the iteration for the
next live item, and without one goes on behind the battery (`Navigator.nextPage_iterates`). The plan
keeps its items all the while.

The way back is not like the way forward. It leads from the start page to the end page for the item
directly before the one that is shown, and nobody asks whether that is live. So stale items are
passed over on the way back (`Navigator.StepsBackLive`) exactly if there is none to pass over: if
the item directly before is live, or if there is no item before (`Navigator.stepsBackLive_iff`).
-/

namespace Questionnaire

open Flow

/-- The items of a battery's plan before the one that is shown; none without a plan. -/
def Session.earlierItems (s : Session) (batteryId : Id) : List LoopItem :=
  ((s.plan? batteryId).map LoopPlan.earlier).getD []

namespace Navigator

variable {nav : Navigator} {s t : Session} {d : Desk} {p : Page} {b : Battery} {plan : LoopPlan}

theorem roles_ofSurvey (survey : Survey) (skipHidden quiet : Bool) :
    (ofSurvey survey skipHidden quiet).roles = (RoleTable.ofSurvey survey).1 := rfl

/-! ## Leaving a page without another iteration -/

namespace Oriented

/-- A page that starts no other iteration is left for the next page that is shown. -/
theorem nextPage_onward (h : nav.Oriented) (hp : p ∈ nav.pages)
    (hnone : Gives s (nav.continueLoop p.id) (.ok none) t) (hd : d.session = s) :
    ∃ events, (nav.nextPage p.id).perform d =
      (do nav.arrive (← nav.nextInOrder p.id)).perform ⟨t, d.generator, events⟩ := by
  obtain ⟨before, after, hsplit⟩ := List.append_of_mem hp
  obtain ⟨events, haround⟩ := (h.gives_around hsplit).perform_bind hd
  obtain ⟨events', hloop⟩ := hnone.perform_bind (d := ⟨s, d.generator, events⟩) rfl
  exact ⟨events', haround.trans hloop⟩

/-- A page that does not step back to another iteration is left for the previous page that is
shown. -/
theorem previousPage_onward (h : nav.Oriented) (hp : p ∈ nav.pages)
    (hnone : Gives s (nav.stepBack p.id) (.ok none) t) (hd : d.session = s) :
    ∃ events, (nav.previousPage p.id).perform d =
      (do nav.arriveBack (← nav.previousInOrder p.id)).perform ⟨t, d.generator, events⟩ := by
  obtain ⟨before, after, hsplit⟩ := List.append_of_mem hp
  obtain ⟨events, haround⟩ := (h.gives_around hsplit).perform_bind hd
  obtain ⟨events', hstep⟩ := hnone.perform_bind (d := ⟨s, d.generator, events⟩) rfl
  exact ⟨events', haround.trans hstep⟩

end Oriented

/-! ## Forward -/

/-- Leaving an end page goes to the next live item. Take a survey whose parts have the declared
types, and whose page ids, page indexes and battery ids are distinct, any session, and the end page
of a battery whose plan has its cursor on one of the items. If an item behind the cursor is live,
the next one that is becomes the one at the cursor, and the respondent gets to the start page for
it. If none is, the cursor gets behind the last item, and leaving goes on exactly as arriving at the
next page that is shown; what is met there does not touch the plan. No item of the plan is changed,
and nothing else of the session by moving the cursor. -/
theorem nextPage_iterates {survey : Survey} (htyped : survey.Typed) (hdistinct : survey.Distinct)
    (skipHidden quiet : Bool) (d : Desk) {page : Id} {c : Nat}
    (hrole : (RoleTable.ofSurvey survey).1.roleOf? page = some (b, .finish))
    (hplan : d.session.plan? b.id = some plan) (hc : plan.CursorAt c) (hlt : c < plan.items.length)
    (hkeys : ∀ item ∈ plan.items, item.key.isCompound = false) :
    let nav := ofSurvey survey skipHidden quiet
    let live := Planning.liveKeys b survey d.session.responses
    (∀ j item, plan.NextLive live c j item → ∃ events, (nav.nextPage page).perform d =
      (.ok (.on b.startPageId (some ⟨plan.batteryId, item, .int j, .int plan.items.length⟩)),
        ⟨d.session.setPlan b.id (plan.moved j), d.generator, events⟩)) ∧
    ((∀ item ∈ plan.items.drop (c + 1), item.key.isAmong live = false) →
      (∃ events, (nav.nextPage page).perform d =
        (do nav.arrive (← nav.nextInOrder page)).perform
          ⟨d.session.setPlan b.id (plan.moved plan.items.length), d.generator, events⟩) ∧
      ((nav.nextPage page).perform d).2.session.plan? b.id =
        some (plan.moved plan.items.length)) := by
  intro nav live
  have h : nav.Oriented := .ofSurvey htyped hdistinct.pageIds hdistinct.pageIndexes skipHidden quiet
  obtain ⟨p, hp, rfl, -⟩ := h.exists_bounds hrole
  have howner : nav.roles.ownerOf? p.id = some (b, .finish) := (h.roleOf?_eq hp).symm.trans hrole
  refine ⟨fun j item hnext => ?_, fun hstale => ?_⟩
  · obtain ⟨before, after, hsplit⟩ := List.append_of_mem hp
    have hcontinue := h.gives_continueLoop_live hp howner hplan hc hlt hkeys hnext.firstLive_eq
    rw [hnext.found, Option.map_some] at hcontinue
    have hnext : Gives d.session (nav.nextPage p.id) _ _ :=
      .bind (h.gives_around hsplit) <| .bind hcontinue .pure
    exact hnext d rfl
  · have hcontinue := h.gives_continueLoop_live hp howner hplan hc hlt hkeys
      (LoopPlan.firstLive_of_stale hlt hstale)
    rw [List.getElem?_eq_none (Nat.le_refl _)] at hcontinue
    obtain ⟨events, honward⟩ := h.nextPage_onward hp hcontinue rfl
    refine ⟨⟨events, honward⟩, ?_⟩
    let t := d.session.setPlan b.id (plan.moved plan.items.length)
    have hkept := h.onward_leaves_alone hdistinct hp howner ⟨t, d.generator, events⟩
      ⟨.refl t, d.session.plan?_setPlan_self _ _⟩
    rw [honward]
    exact hkept.2

/-! ## Backward -/

/-- Leaving the start page of a battery backward in a way that passes over stale items. On the end
page of the battery the item is live, and no live item is between it and the one that was shown
before; the end page is reached if there is a live item before the one shown; and otherwise the
battery is left backward. -/
structure StepsBackLive (nav : Navigator) (b : Battery) (page : Id) (d : Desk) : Prop where
  live : ∀ l d', (nav.previousPage page).perform d = (.ok l, d') → l.pageId = some b.endPageId →
    ∃ i before after, l.iteration = some i ∧
      d.session.earlierItems b.id = before ++ i.item :: after ∧ i.index = .int before.length ∧
      i.item.key.isAmong (Planning.liveKeys b nav.survey d.session.responses) = true ∧
      ∀ item ∈ after,
        item.key.isAmong (Planning.liveKeys b nav.survey d.session.responses) = false
  returns : (∃ item ∈ d.session.earlierItems b.id,
      item.key.isAmong (Planning.liveKeys b nav.survey d.session.responses) = true) →
    ∃ i d', (nav.previousPage page).perform d = (.ok (.on b.endPageId (some i)), d')
  leaves : (∀ item ∈ d.session.earlierItems b.id,
      item.key.isAmong (Planning.liveKeys b nav.survey d.session.responses) = false) →
    ∃ events, (nav.previousPage page).perform d =
      (do nav.arriveBack (← nav.previousInOrder page)).perform
        ⟨d.session, d.generator, events⟩

namespace Oriented

variable (h : nav.Oriented) (hp : p ∈ nav.pages)
  (hrole : nav.roles.ownerOf? p.id = some (b, .start))
include h hp hrole

/-- Without an item before the one shown the battery is left backward. -/
theorem gives_stepBack_of_earlier_nil
    (hcursor : ∀ plan, s.plan? b.id = some plan → ∃ c : Nat, plan.cursor = .int c)
    (hnil : s.earlierItems b.id = []) : Gives s (nav.stepBack p.id) (.ok none) s := by
  refine h.gives_stepBack_first hp hrole fun plan hplan => ?_
  obtain ⟨c, hc⟩ := hcursor plan hplan
  rw [Session.earlierItems, hplan] at hnil
  exact LoopPlan.rewind_of_earlier_nil hc hnil

/-- Otherwise the end page is reached for the item directly before the one shown. -/
theorem gives_previousPage_of_earlier
    (hcursor : ∀ plan, s.plan? b.id = some plan → ∃ c : Nat, plan.cursor = .int c)
    {before : List LoopItem} {item : LoopItem} (hearlier : s.earlierItems b.id = before ++ [item]) :
    ∃ plan, s.plan? b.id = some plan ∧ Gives s (nav.previousPage p.id)
      (.ok (.on b.endPageId
        (some ⟨plan.batteryId, item, .int before.length, .int plan.items.length⟩)))
      (s.setPlan b.id (plan.moved before.length)) := by
  cases hplan : s.plan? b.id with
  | none => simp [Session.earlierItems, hplan] at hearlier
  | some plan =>
    obtain ⟨c, hc⟩ := hcursor plan hplan
    rw [Session.earlierItems, hplan] at hearlier
    obtain ⟨hrewind, hiteration⟩ := LoopPlan.rewind_of_earlier hc hearlier
    obtain ⟨inFront, behind, hsplit⟩ := List.append_of_mem hp
    exact ⟨plan, rfl, .bind (h.gives_around hsplit) <|
      .bind (h.gives_stepBack hp hrole hplan hrewind hiteration) .pure⟩

/-- A battery that is left backward is left for a page before it. -/
theorem arriveBack_ne_endPage {P : Session → Prop} :
    Ensures P (do nav.arriveBack (← nav.previousInOrder p.id))
      fun l _ => l.pageId ≠ some b.endPageId := by
  obtain ⟨finish, hfinish, hfid, hlt, -⟩ := h.exists_finish hp hrole
  refine .bind (h.previousInOrder_ahead hp) fun o => .given (fun _ hs => hs) fun ho => ?_
  refine (h.arriveBackWithin_ahead _ o ho).mono (fun _ _ => trivial) fun l _ hl heq => ?_
  obtain ⟨q, hq, hqid, hbefore⟩ := hl _ heq
  cases h.inOrder.eq_of_id hq hfinish (hqid.trans hfid.symm)
  omega

/-- Stale items are passed over on the way back exactly if the item directly before the one shown is
live, if there is one. -/
theorem stepsBackLive_iff
    (hcursor : ∀ plan, d.session.plan? b.id = some plan → ∃ c : Nat, plan.cursor = .int c) :
    nav.StepsBackLive b p.id d ↔ ∀ item, (d.session.earlierItems b.id).getLast? = some item →
      item.key.isAmong (Planning.liveKeys b nav.survey d.session.responses) = true := by
  have hgiven : b.endPageId.given? = some b.endPageId := by
    obtain ⟨finish, hfinish, hfid, -⟩ := h.exists_finish hp hrole
    rw [← hfid, h.inOrder.given?_id hfinish]
  rcases List.eq_nil_or_concat (d.session.earlierItems b.id) with hnil | ⟨before, item, hearlier⟩
  · -- There is nothing to step back to.
    obtain ⟨events, honward⟩ :=
      h.previousPage_onward hp (h.gives_stepBack_of_earlier_nil hp hrole hcursor hnil) rfl
    simp only [hnil, List.getLast?_nil, reduceCtorEq, false_implies, implies_true, iff_true]
    refine ⟨fun l d' hperform hend => ?_, fun hlive => ?_, fun _ => ⟨events, honward⟩⟩
    · rw [honward] at hperform
      exact absurd hend
        (h.arriveBack_ne_endPage hp hrole (P := fun _ => True) _ _ _ trivial hperform)
    · simp [hnil] at hlive
  · -- The item directly before the one shown is what the code goes to.
    rw [List.concat_eq_append] at hearlier
    obtain ⟨plan, hplan, hgives⟩ := h.gives_previousPage_of_earlier hp hrole hcursor hearlier
    obtain ⟨events, hperform⟩ := hgives d rfl
    simp only [hearlier, List.getLast?_concat, Option.some.injEq, forall_eq']
    refine ⟨fun hsteps => ?_, fun hlive => ⟨fun l d' hl _ => ?_, fun _ => ⟨_, _, hperform⟩,
      fun hstale => ?_⟩⟩
    · obtain ⟨i, -, -, hi, -, -, hlive, -⟩ := hsteps.live _ _ hperform hgiven
      cases hi
      exact hlive
    · cases hperform.symm.trans hl
      exact ⟨_, before, [], rfl, hearlier, rfl, hlive, nofun⟩
    · have hnot := hstale item (by simp [hearlier])
      rw [hlive] at hnot
      cases hnot

end Oriented

/-- Where stale items are passed over on the way back. Take a survey whose parts have the declared
types, and whose page ids, page indexes and battery ids are distinct, any session, and the start
page of a battery that has no plan yet or one whose cursor is a natural number. Leaving the page
backward passes over stale items exactly if the item directly before the one shown is live, or if
there is no item before. -/
theorem previousPage_live_iff {survey : Survey} (htyped : survey.Typed)
    (hdistinct : survey.Distinct) (skipHidden quiet : Bool) (d : Desk) {page : Id}
    (hrole : (RoleTable.ofSurvey survey).1.roleOf? page = some (b, .start))
    (hcursor : ∀ plan, d.session.plan? b.id = some plan → ∃ c : Nat, plan.cursor = .int c) :
    (ofSurvey survey skipHidden quiet).StepsBackLive b page d ↔
      ∀ item, (d.session.earlierItems b.id).getLast? = some item →
        item.key.isAmong (Planning.liveKeys b survey d.session.responses) = true := by
  have h : (ofSurvey survey skipHidden quiet).Oriented :=
    .ofSurvey htyped hdistinct.pageIds hdistinct.pageIndexes skipHidden quiet
  obtain ⟨p, hp, rfl, -⟩ := h.exists_bounds hrole
  exact h.stepsBackLive_iff hp ((h.roleOf?_eq hp).symm.trans hrole) hcursor

end Navigator

namespace Sample.BrandTracker

theorem roles_survey : (RoleTable.ofSurvey (survey (.int 2))).1 = navigator.roles := by
  rw [← Navigator.roles_ofSurvey _ true false, ofSurvey_survey]

theorem roleOf?_startPage :
    (RoleTable.ofSurvey (survey (.int 2))).1.roleOf? brands.startPageId =
      some (brands, .start) := by
  rw [roles_survey]
  decide +kernel

theorem roleOf?_endPage_brands :
    (RoleTable.ofSurvey (survey (.int 2))).1.roleOf? brands.endPageId =
      some (brands, .finish) := by
  rw [roles_survey]
  decide +kernel

/-- The respondent with another answer to the question about brands. -/
def hearing (values : List String) : Session :=
  aware.respond (.text "q_aware") (.list (values.map .text))

/-- The plan over all three brands, at one of them. -/
def allBrands (c : Nat) : LoopPlan :=
  ⟨brands.id, Planning.sourceItems brands (survey (.int 2))
    (hearing ["nike", "puma", "adidas"]).responses, .int c⟩

/-- The respondent on the pages about one of three brands, with an answer that may have changed
since the plan was made. -/
def onBrand (c : Nat) (values : List String) : Session :=
  (hearing values).setPlan brands.id (allBrands c)

theorem plan?_onBrand (c : Nat) (values : List String) :
    (onBrand c values).plan? brands.id = some (allBrands c) :=
  (hearing values).plan?_setPlan_self _ _

theorem cursor_onBrand (c : Nat) (values : List String) : ∀ plan,
    (onBrand c values).plan? brands.id = some plan → ∃ n : Nat, plan.cursor = .int n := by
  intro plan hplan
  cases (plan?_onBrand c values).symm.trans hplan
  exact ⟨c, rfl⟩

theorem earlierItems_onBrand (c : Nat) (values : List String) :
    (onBrand c values).earlierItems brands.id = (allBrands c).earlier := by
  rw [Session.earlierItems, plan?_onBrand]
  rfl

end Sample.BrandTracker

open Sample BrandTracker in
/-- From the first brand to the second one, and behind the first one where the second one is taken
back. -/
theorem Navigator.nextPage_iterates_brandTracker :
    let nav := ofSurvey (BrandTracker.survey (.int 2)) true false
    (∃ item events, brandsPlan.items[1]? = some item ∧
      (nav.nextPage brands.endPageId).perform ⟨midway, .ofScript [], []⟩ =
        (.ok (.on brands.startPageId (some ⟨brands.id, item, .int 1, .int 2⟩)),
          ⟨midway.setPlan brands.id (brandsPlan.moved 1), .ofScript [], events⟩)) ∧
    ∃ events, (nav.nextPage brands.endPageId).perform ⟨lapsed, .ofScript [], []⟩ =
      (do nav.arrive (← nav.nextInOrder brands.endPageId)).perform
        ⟨lapsed.setPlan brands.id (brandsPlan.moved 2), .ofScript [], events⟩ := by
  intro nav
  have hkeys : ∀ item ∈ brandsPlan.items, item.key.isCompound = false := by decide
  have hplanMidway : midway.plan? brands.id = some brandsPlan := by decide +kernel
  have hplanLapsed : lapsed.plan? brands.id = some brandsPlan := by decide +kernel
  have hmidway := nextPage_iterates typed distinct true false ⟨midway, .ofScript [], []⟩
    roleOf?_endPage_brands hplanMidway cursorAt_brandsPlan (by decide) hkeys
  have hlapsed := nextPage_iterates typed distinct true false ⟨lapsed, .ofScript [], []⟩
    roleOf?_endPage_brands hplanLapsed cursorAt_brandsPlan (by decide) hkeys
  obtain ⟨events, hnext⟩ :=
    hmidway.1 1 (brandsPlan.items[1]) ⟨by decide, rfl, by decide +kernel, by omega⟩
  exact ⟨⟨_, events, rfl, hnext⟩, (hlapsed.2 (by decide +kernel)).1⟩

open Sample BrandTracker in
/-- From the last of three brands to the second one, as long as that is not taken back. -/
theorem Navigator.previousPage_live_brandTracker :
    (ofSurvey (BrandTracker.survey (.int 2)) true false).StepsBackLive brands brands.startPageId
      ⟨onBrand 2 ["nike", "puma"], .ofScript [], []⟩ := by
  refine (previousPage_live_iff typed distinct true false
    ⟨onBrand 2 ["nike", "puma"], .ofScript [], []⟩ roleOf?_startPage (cursor_onBrand _ _)).2 ?_
  rw [earlierItems_onBrand]
  decide +kernel

open Sample BrandTracker in
/-- With the second of three brands taken back, stepping back from the third one leads to the second
one all the same, although the first one is live. -/
theorem Navigator.stale_brand_shown_again :
    let nav := ofSurvey (BrandTracker.survey (.int 2)) true false
    let d : Desk := ⟨onBrand 2 ["nike", "adidas"], .ofScript [], []⟩
    (∃ item d', (nav.previousPage brands.startPageId).perform d =
        (.ok (.on brands.endPageId (some ⟨brands.id, item, .int 1, .int 3⟩)), d') ∧
      item.key = .text "puma" ∧
      item.key.isAmong (Planning.liveKeys brands nav.survey d.session.responses) = false) ∧
    ¬nav.StepsBackLive brands brands.startPageId d := by
  intro nav d
  have h : nav.Oriented := .ofSurvey typed distinct.pageIds distinct.pageIndexes true false
  have hrole : nav.roles.roleOf? brands.startPageId = some (brands, .start) := by
    rw [roles_ofSurvey, roleOf?_startPage]
  obtain ⟨p, hp, hid, -⟩ := h.exists_bounds hrole
  have howner : nav.roles.ownerOf? p.id = some (brands, .start) := by
    rw [← h.roleOf?_eq hp, hid, hrole]
  have hearlier : d.session.earlierItems brands.id =
      [(allBrands 2).items[0]] ++ [(allBrands 2).items[1]] := by
    rw [earlierItems_onBrand]
    rfl
  constructor
  · obtain ⟨plan, hplan, hgives⟩ :=
      h.gives_previousPage_of_earlier hp howner (cursor_onBrand _ _) hearlier
    cases (plan?_onBrand _ _).symm.trans hplan
    obtain ⟨events, hperform⟩ := hgives d rfl
    rw [hid] at hperform
    exact ⟨_, _, hperform, rfl, by decide +kernel⟩
  · rw [← hid, h.stepsBackLive_iff hp howner (cursor_onBrand _ _), hearlier]
    decide +kernel

end Questionnaire
