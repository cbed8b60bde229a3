import Questionnaire.Proofs.Flow.Outcome
import Questionnaire.Proofs.Register
import Questionnaire.Proofs.Route.Keeping
import Questionnaire.Proofs.Route.Sourcing

/-!
# Arriving at pages

Navigation of a survey whose parts have the declared types finds pages, roles and plans without
failing (`Navigator.Oriented`). When its start page is reached, a battery without a plan is given
one that fits (`Oriented.yields_enter`), and a plan is moved to its first live item
(`Oriented.yields_enter_again`). A plan that is advanced stops at the first live item
(`Oriented.gives_skipStale_live`), so the end page of a battery is left for the next live item or,
where there is none, for the pages behind (`Oriented.gives_continueLoop_live`). The start page is
left backward for the item before (`Oriented.gives_stepBack`).

As long as there is a verdict on every page (`Navigator.Ready`), navigation fails nowhere. The next
page is the first one behind that is shown (`Ready.yields_nextInOrder`). No item of a plan that fits
is stale (`Ready.firstLive_of_fits`), so its items are gone through one by one
(`Ready.yields_continueLoop`).

Work that moves a plan has one outcome on each session, and what it gives is stated first. The
answers and the embedded data do not change, so for longer ways a session is described by the one at
the outset and by the plans that it has (`Session.Planned`).
-/

namespace Questionnaire

open Flow

/-! ## Plans can be made -/

namespace Survey.Typed

variable {survey : Survey} {b : Battery} {responses : Register Value}

/-- The keys of items are texts. -/
theorem isText_key (h : survey.Typed) (hb : b ∈ survey.batteries) {item : LoopItem}
    (hitem : item ∈ Planning.sourceItems b survey responses) : item.key.isText = true := by
  unfold Planning.sourceItems at hitem
  split at hitem
  · obtain ⟨r, hr, rfl⟩ := List.mem_map.1 hitem
    exact h.rowKey b hb r (List.mem_filter.1 ((sortedBy_perm _ _).mem_iff.1 hr)).1
  · split at hitem
    · cases hitem
    · obtain ⟨c, -, rfl⟩ := List.mem_map.1 hitem
      rfl

/-- A plan is made or there are no items: either way the battery gets a plan that fits, with its
cursor at the first item. -/
theorem yields_newPlan (h : survey.Typed) (hb : b ∈ survey.batteries) (P : Session → Prop) :
    Yields P (Planning.newPlan b survey responses) fun o s => P s ∧
      b.Fits survey responses (o.getD (.skipped b.id)) ∧
      (o.getD (.skipped b.id)).cursor = .int 0 := by
  refine ((h.battery hb).yields_newPlan P).mono (fun _ hs => hs) ?_
  rintro (_ | p) s ⟨hs, hplan⟩
  · exact ⟨hs, Planning.fits_skipped hplan, rfl⟩
  · exact ⟨hs, hplan.1.fits, hplan.1.cursor⟩

end Survey.Typed

/-! ## Sessions described by their plans -/

/-- The plans of a session, as they are looked up. -/
abbrev Plans := Id → Option LoopPlan

/-- The plans with one put under an id. -/
def Plans.put (plans : Plans) (id : Id) (p : LoopPlan) : Plans :=
  fun j => if j.agrees id then some p else plans j

@[simp] theorem Plans.put_self (plans : Plans) (id : Id) (p : LoopPlan) :
    plans.put id p id = some p := if_pos (Value.agrees_self id)

@[simp] theorem Plans.put_put (plans : Plans) (id : Id) (p q : LoopPlan) :
    (plans.put id p).put id q = plans.put id q := by
  funext j
  unfold put
  split <;> rfl

theorem Plans.put_of_agrees_eq_false {plans : Plans} {id j : Id} (h : j.agrees id = false)
    (p : LoopPlan) : plans.put id p j = plans j := by
  simp [put, h]

/-- A session with the answers and the embedded data of another one, and with the given plans. -/
structure Session.Planned (s₀ : Session) (plans : Plans) (s : Session) : Prop where
  responses : s.responses = s₀.responses
  embedded : s.embedded = s₀.embedded
  plan? : ∀ id, s.plan? id = plans id

theorem Session.planned_self (s : Session) : s.Planned s.plan? s := ⟨rfl, rfl, fun _ => rfl⟩

theorem Session.Planned.setPlan {s₀ s : Session} {plans : Plans} (h : s₀.Planned plans s) (id : Id)
    (p : LoopPlan) : s₀.Planned (plans.put id p) (s.setPlan id p) where
  responses := h.responses
  embedded := h.embedded
  plan? j := by rw [plan?_setPlan, Plans.put, h.plan? j]

/-- A plan put where it is already changes nothing: ids that agree have the same plan. -/
theorem Session.Planned.put_eq {s₀ s : Session} {plans : Plans} {id : Id} {p : LoopPlan}
    (h : s₀.Planned plans s) (hp : plans id = some p) : plans.put id p = plans := by
  funext j
  unfold Plans.put
  split
  · next hagree =>
    rw [← hp, ← h.plan? id, ← h.plan? j]
    exact Register.get?_congr s.plans ((Value.agrees_comm _ _).trans hagree)
  · rfl

namespace Navigator

/-- The verdict on whether the respondent of a session is shown a page. -/
def verdict (nav : Navigator) (s : Session) (p : Page) : Except Fault Bool :=
  ((s.context nav.survey).judgeOpenAuthored nav.quiet
    ((p.visibleIf.map Criterion.text).getD .null)).1

theorem exists_verdict {nav : Navigator} {s : Session} {p : Page}
    (h : (nav.verdict s p).isOk = true) : ∃ shown, nav.verdict s p = .ok shown := by
  cases hverdict : nav.verdict s p with
  | ok shown => exact ⟨shown, rfl⟩
  | error e => rw [hverdict] at h; cases h

/-- Whether the respondent of a session is shown a page: the ends of a battery always are. -/
def shows (nav : Navigator) (s : Session) (p : Page) : Bool :=
  !nav.skipHidden || nav.roles.isBoundary p.id || nav.verdict s p matches .ok true

/-- The id of the first page of a list that is shown. -/
def firstOf (nav : Navigator) (s : Session) (l : List Page) : Option Id :=
  (l.find? (nav.shows s)).map Page.id

/-- A navigator of a survey whose parts have the declared types and whose pages stand in a strict
order. -/
structure Oriented (nav : Navigator) : Prop where
  typed : nav.survey.Typed
  inOrder : InOrder nav.pages
  pages : nav.pages = nav.survey.pagesInOrder
  roles : nav.roles = (RoleTable.ofSurvey nav.survey).1

theorem Oriented.ofSurvey {survey : Survey} (h : survey.Typed)
    (hids : (survey.pages.map Page.id).Nodup) (hindexes : (survey.pages.map Page.index).Nodup)
    (skipHidden quiet : Bool) : (ofSurvey survey skipHidden quiet).Oriented :=
  ⟨h, survey.inOrder h hids hindexes, rfl, rfl⟩

/-- A navigator of a survey whose batteries are told apart as well, with verdicts on all pages for
the respondent of a session if pages may be hidden. -/
structure Ready (nav : Navigator) (s₀ : Session) : Prop extends nav.Oriented where
  distinct : nav.survey.Distinct
  verdict : nav.skipHidden = true → ∀ p ∈ nav.survey.pages, ∃ shown, nav.verdict s₀ p = .ok shown

theorem Ready.ofSurvey {survey : Survey} {s₀ : Session} (h : survey.Typed) (hd : survey.Distinct)
    {skipHidden quiet : Bool} (hverdict : skipHidden = true → ∀ p ∈ survey.pages,
      ∃ shown, (ofSurvey survey skipHidden quiet).verdict s₀ p = .ok shown) :
    (ofSurvey survey skipHidden quiet).Ready s₀ :=
  ⟨.ofSurvey h hd.pageIds hd.pageIndexes skipHidden quiet, hd, hverdict⟩

variable {nav : Navigator} {s s₀ : Session} {plans : Plans} {P : Session → Prop}
  {p start finish : Page}
  {before after inner : List Page} {b : Battery} {plan : LoopPlan} {c : Nat} {role : LoopRole}

theorem yields_demandKeys {ids : List Id} (hids : ∀ id ∈ ids, id.isText = true) :
    Yields P (Flow.demandKeys ids) fun _ => P :=
  (Yields.ofOk (demandKeys_of_isText hids)).mono (fun _ hs => hs) fun _ _ hs => hs.1

theorem arriveWithin_none (fuel : Nat) : nav.arriveWithin fuel none = pure .finished := by
  cases fuel <;> rfl

theorem arriveBackWithin_none (fuel : Nat) : nav.arriveBackWithin fuel none = pure .nowhere := by
  cases fuel <;> rfl

/-! ## Pages, roles and plans -/

theorem gives_roleOf {id : Id} (hid : id.isCompound = false) :
    Gives s (nav.roleOf id) (.ok (nav.roles.roleOf? id)) s :=
  .bind (.demandKeys (List.forall_mem_singleton.2 hid)) .pure

theorem gives_planOf {id : Id} (hid : id.isCompound = false) :
    Gives s (planOf id) (.ok (s.plan? id)) s :=
  .bind (.demandKeys (List.forall_mem_singleton.2 hid)) <| .bind .session .pure

/-- The cursor of a plan that is complete is not moved. -/
theorem gives_skipStale_of_done (hdone : plan.isComplete = .ok true) :
    Gives s (nav.skipStale b plan) (.ok plan) s :=
  .bind (.ofOk hdone) .pure

namespace Oriented

theorem isCompound_id (h : nav.Oriented) (hp : p ∈ nav.pages) : p.id.isCompound = false :=
  Value.isCompound_of_isText (h.inOrder.id p hp)

theorem isCompound_batteryId (h : nav.Oriented) (hb : b ∈ nav.survey.batteries) :
    b.id.isCompound = false :=
  Value.isCompound_of_isText (h.typed.batteryId b hb)

theorem gives_around (h : nav.Oriented) (hsplit : nav.pages = before ++ p :: after) :
    Gives s (nav.around p.id) (.ok (before, p, after)) s := by
  have hp : p.id.isCompound = false := h.isCompound_id (by simp [hsplit])
  refine .bind (.demandKeys (List.forall_mem_singleton.2 hp)) ?_
  have hL := h.inOrder
  rw [hsplit] at hL ⊢
  rw [aroundLast?_of_nodup hL.id hL.ids]
  exact .pure

theorem roleOf?_eq (h : nav.Oriented) (hp : p ∈ nav.pages) :
    nav.roles.roleOf? p.id = nav.roles.ownerOf? p.id := by
  rw [RoleTable.roleOf?, h.inOrder.given?_id hp, Option.bind_some]

theorem gives_roleOf (h : nav.Oriented) (hp : p ∈ nav.pages) :
    Gives s (nav.roleOf p.id) (.ok (nav.roles.ownerOf? p.id)) s :=
  h.roleOf?_eq hp ▸ Navigator.gives_roleOf (h.isCompound_id hp)

theorem mem_batteries (h : nav.Oriented) {id : Id}
    (hrole : nav.roles.ownerOf? id = some (b, role)) :
    b ∈ nav.survey.batteries := by
  obtain ⟨st, hst, rfl, -⟩ := RoleTable.exists_of_ownerOf? hrole
  rw [h.roles] at hst
  exact (RoleTable.mem_batteries_of_mem_stretches hst).1

theorem gives_planOf (h : nav.Oriented) (hb : b ∈ nav.survey.batteries) :
    Gives s (planOf b.id) (.ok (s.plan? b.id)) s :=
  Navigator.gives_planOf (h.isCompound_batteryId hb)

/-- The cursor of a plan that is not complete goes as far as it gets over stale items. It is stored
there, and then what stopped it is raised if that is a fault. -/
theorem gives_skipStale_of_open (h : nav.Oriented) (hb : b ∈ nav.survey.batteries)
    (hopen : plan.isComplete = .ok false) :
    let passage := plan.passage (Planning.liveKeys b nav.survey s.responses)
    let q := { plan with cursor := passage.cursor }
    Gives s (nav.skipStale b plan) (passage.fault.elim (.ok q) .error) (s.setPlan b.id q) := by
  refine .bind (.ofOk hopen) <| .bind .session <| .bind .logAll ?_
  refine .bind (.ofOk ((h.typed.battery hb).demandListable _)) ?_
  refine .bind (.demandKeys fun key hkey => ?_) ?_
  · obtain ⟨item, hitem, rfl⟩ := List.mem_map.1 hkey
    exact Value.isCompound_of_isText (h.typed.isText_key hb hitem)
  · refine .bind .logAll <| .bind .update ?_
    split
    · next hfault => exact hfault ▸ .pure
    · next e hfault => exact hfault ▸ .throw

/-- The cursor of a plan is moved to the first live item. -/
theorem gives_skipStale_live (h : nav.Oriented) (hb : b ∈ nav.survey.batteries)
    (hplan : s.plan? b.id = some plan) (hc : plan.CursorAt c)
    (hkeys : ∀ item ∈ plan.items, item.key.isCompound = false) :
    let q := plan.moved (plan.firstLive (Planning.liveKeys b nav.survey s.responses) c)
    Gives s (nav.skipStale b plan) (.ok q) (s.setPlan b.id q) := by
  intro q
  by_cases hdone : plan.items.length ≤ c
  · -- Behind the last item there is nothing to pass over.
    have hstays : q = plan := by
      rw [hc.eq_moved, show q = plan.moved _ from rfl, (LoopPlan.firstLive_of_live _).1]
      intro item hitem
      rw [List.getElem?_eq_none hdone] at hitem
      cases hitem
    rw [hstays, Session.setPlan_of_plan? hplan]
    exact gives_skipStale_of_done (hc.isComplete.trans (by rw [decide_eq_true hdone]))
  · have hopen : plan.isComplete = .ok false := hc.isComplete.trans (by rw [decide_eq_false hdone])
    have hgives := h.gives_skipStale_of_open (s := s) hb hopen
    rw [hc.passage_eq hkeys] at hgives
    exact hgives

theorem yields_around (h : nav.Oriented) (hsplit : nav.pages = before ++ p :: after) :
    Yields P (nav.around p.id) fun x s => P s ∧ x = (before, p, after) :=
  .of_gives (fun _ _ => h.gives_around hsplit) fun _ hs => ⟨hs, rfl⟩

theorem yields_roleOf (h : nav.Oriented) (hp : p ∈ nav.pages) :
    Yields P (nav.roleOf p.id) fun o s => P s ∧ o = nav.roles.ownerOf? p.id :=
  .of_gives (fun _ _ => h.gives_roleOf hp) fun _ hs => ⟨hs, rfl⟩

theorem yields_planOf (h : nav.Oriented) (hb : b ∈ nav.survey.batteries) :
    Yields (s₀.Planned plans) (planOf b.id) fun o s => s₀.Planned plans s ∧ o = plans b.id :=
  .of_gives (fun _ hs => hs.plan? b.id ▸ h.gives_planOf hb) fun _ hs => ⟨hs, rfl⟩

/-- A battery without a plan is given one that fits, with its cursor at the first item. -/
theorem yields_enter_new (h : nav.Oriented) (hb : b ∈ nav.survey.batteries)
    (hnone : s.plan? b.id = none) :
    Yields (· = s) (nav.enter b) fun x t =>
      (b.Fits nav.survey s.responses x.1 ∧ x.1.cursor = .int 0 ∧ x.2 = false) ∧
        t = s.setPlan b.id x.1 := by
  have hold : Yields (· = s) (planOf b.id) fun o t => t = s ∧ o = none := by
    refine .of_gives (fun _ hs => ?_) fun _ hs => ⟨hs, hnone⟩
    rw [hs]
    exact h.gives_planOf hb
  refine .bind_known hold ?_
  refine .bind .session fun t => .bind (h.typed.yields_newPlan hb _) fun o => ?_
  refine .bind (.update (Q := fun _ u => (b.Fits nav.survey s.responses (o.getD (.skipped b.id)) ∧
    (o.getD (.skipped b.id)).cursor = .int 0) ∧
      u = s.setPlan b.id (o.getD (.skipped b.id))) fun u hu => ?_) fun _ => ?_
  · obtain ⟨⟨rfl, rfl⟩, hfits, hcursor⟩ := hu
    exact ⟨⟨hfits, hcursor⟩, rfl⟩
  · exact .pure fun _ hs => ⟨⟨hs.1.1, hs.1.2, rfl⟩, hs.2⟩

theorem yields_enter (h : nav.Oriented) (hb : b ∈ nav.survey.batteries)
    (hnone : plans b.id = none) :
    Yields (s₀.Planned plans) (nav.enter b) fun x s =>
      (b.Fits nav.survey s₀.responses x.1 ∧ x.1.cursor = .int 0 ∧ x.2 = false) ∧
        s₀.Planned (plans.put b.id x.1) s := by
  intro d hd
  obtain ⟨x, d', hperform, hmade, hsession⟩ :=
    h.yields_enter_new hb ((hd.plan? b.id).trans hnone) d rfl
  refine ⟨x, d', hperform, hd.responses ▸ hmade, ?_⟩
  rw [hsession]
  exact hd.setPlan _ _

/-- The plan of a battery that has one is moved to the first live item. -/
theorem gives_enter_again (h : nav.Oriented) (hb : b ∈ nav.survey.batteries)
    (hplan : s.plan? b.id = some plan) (hc : plan.CursorAt c)
    (hkeys : ∀ item ∈ plan.items, item.key.isCompound = false) :
    let q := plan.moved (plan.firstLive (Planning.liveKeys b nav.survey s.responses) c)
    Gives s (nav.enter b) (.ok (q, decide (plan.items.length ≤ c))) (s.setPlan b.id q) := by
  refine .bind (h.gives_planOf hb) ?_
  rw [hplan]
  exact .bind (.ofOk hc.isComplete) <| .bind (h.gives_skipStale_live hb hplan hc hkeys) .pure

theorem yields_enter_again (h : nav.Oriented) (hb : b ∈ nav.survey.batteries)
    (hplan : plans b.id = some plan) (hc : plan.CursorAt c)
    (hkeys : ∀ item ∈ plan.items, item.key.isCompound = false) :
    let n := plan.firstLive (Planning.liveKeys b nav.survey s₀.responses) c
    Yields (s₀.Planned plans) (nav.enter b) fun x s =>
      s₀.Planned (plans.put b.id (plan.moved n)) s ∧
        x = (plan.moved n, decide (plan.items.length ≤ c)) :=
  .of_gives (fun _ hs =>
      hs.responses ▸ h.gives_enter_again hb ((hs.plan? b.id).trans hplan) hc hkeys)
    fun _ hs => ⟨hs.setPlan _ _, rfl⟩

/-- A page that no battery owns is shown without an item. -/
theorem yields_iterationOf_free (h : nav.Oriented) (hp : p ∈ nav.pages)
    (hrole : nav.roles.ownerOf? p.id = none) :
    Yields P (nav.iterationOf p.id) fun i s => P s ∧ i = none := by
  refine .bind_known (h.yields_roleOf hp) ?_
  rw [hrole]
  exact .pure fun _ hs => ⟨hs, rfl⟩

/-- A page of a battery is shown for the item at the cursor. -/
theorem yields_iterationOf (h : nav.Oriented) (hp : p ∈ nav.pages)
    (hrole : nav.roles.ownerOf? p.id = some (b, role)) (hplan : plans b.id = some plan)
    (hc : plan.CursorAt c) (hlt : c < plan.items.length) :
    Yields (s₀.Planned plans) (nav.iterationOf p.id) fun i s => s₀.Planned plans s ∧
      i = some ⟨plan.batteryId, plan.items[c], .int c, .int plan.items.length⟩ := by
  refine .bind_known (h.yields_roleOf hp) ?_
  rw [hrole]
  refine .bind_known (h.yields_planOf (h.mem_batteries hrole)) ?_
  rw [hplan]
  exact .ofOk (hc.iteration (by omega) hlt)

/-- Only the end page of a battery starts another iteration. -/
theorem yields_continueLoop_of_ne (h : nav.Oriented) (hp : p ∈ nav.pages)
    (hrole : ∀ b, nav.roles.ownerOf? p.id ≠ some (b, .finish)) :
    Yields P (nav.continueLoop p.id) fun o s => P s ∧ o = none := by
  refine .bind_known (h.yields_roleOf hp) ?_
  split
  · next b ho => exact absurd ho (hrole b)
  · exact .pure fun _ hs => ⟨hs, rfl⟩

/-- A battery that has no plan, or is done with it, starts no other iteration. -/
theorem yields_continueLoop_of_done (h : nav.Oriented) (hp : p ∈ nav.pages)
    (hrole : nav.roles.ownerOf? p.id = some (b, .finish))
    (hdone : ∀ plan, plans b.id = some plan → plan.isComplete = .ok true) :
    Yields (s₀.Planned plans) (nav.continueLoop p.id) fun o s =>
      s₀.Planned plans s ∧ o = none := by
  refine .bind_known (h.yields_roleOf hp) ?_
  rw [hrole]
  refine .bind_known (h.yields_planOf (h.mem_batteries hrole)) ?_
  cases hplan : plans b.id with
  | none => exact .pure fun _ hs => ⟨hs, rfl⟩
  | some plan => exact .bind_known (.ofOk (hdone plan hplan)) <| .pure fun _ hs => ⟨hs, rfl⟩

/-- Leaving the end page of a battery moves the cursor to the next live item, if there is one. -/
theorem gives_continueLoop_live (h : nav.Oriented) (hp : p ∈ nav.pages)
    (hrole : nav.roles.ownerOf? p.id = some (b, .finish)) (hplan : s.plan? b.id = some plan)
    (hc : plan.CursorAt c) (hlt : c < plan.items.length)
    (hkeys : ∀ item ∈ plan.items, item.key.isCompound = false) {n : Nat}
    (hfirst : plan.firstLive (Planning.liveKeys b nav.survey s.responses) (c + 1) = n) :
    Gives s (nav.continueLoop p.id)
      (.ok (plan.items[n]?.map fun item => .on b.startPageId
        (some ⟨plan.batteryId, item, .int n, .int plan.items.length⟩)))
      (s.setPlan b.id (plan.moved n)) := by
  have hb := h.mem_batteries hrole
  have hnext : (plan.moved (c + 1)).CursorAt (c + 1) := LoopPlan.cursorAt_moved hlt
  have hn : (plan.moved n).CursorAt n :=
    LoopPlan.cursorAt_moved (hfirst ▸ LoopPlan.firstLive_le hlt)
  have hskip : Gives (s.setPlan b.id (plan.moved (c + 1))) (nav.skipStale b (plan.moved (c + 1)))
      (.ok (plan.moved n)) (s.setPlan b.id (plan.moved n)) := by
    rw [← s.setPlan_setPlan b.id (plan.moved (c + 1)) (plan.moved n), ← hfirst]
    exact h.gives_skipStale_live hb (s.plan?_setPlan_self _ _) hnext hkeys
  refine .bind (h.gives_roleOf hp) ?_
  rw [hrole]
  refine .bind (h.gives_planOf hb) ?_
  rw [hplan]
  refine .bind (.ofOk hc.isComplete) ?_
  rw [decide_eq_false (by omega)]
  refine .bind (.ofOk (hc.advance hlt)) <| .bind .update <| .bind hskip <|
    .bind (.ofOk hn.isComplete) ?_
  by_cases hmore : n < plan.items.length
  · rw [LoopPlan.moved_items, decide_eq_false (by omega), List.getElem?_eq_getElem hmore]
    refine .bind .log <| .bind (.ofOk (hn.iteration (n := n) ?_ hmore)) .pure
    rw [LoopPlan.moved_items]
    omega
  · rw [LoopPlan.moved_items, decide_eq_true (by omega), List.getElem?_eq_none (by omega)]
    exact .bind .log .pure

theorem yields_continueLoop_live (h : nav.Oriented) (hp : p ∈ nav.pages)
    (hrole : nav.roles.ownerOf? p.id = some (b, .finish)) (hplan : plans b.id = some plan)
    (hc : plan.CursorAt c) (hlt : c < plan.items.length)
    (hkeys : ∀ item ∈ plan.items, item.key.isCompound = false) :
    let n := plan.firstLive (Planning.liveKeys b nav.survey s₀.responses) (c + 1)
    Yields (s₀.Planned plans) (nav.continueLoop p.id) fun o s =>
      s₀.Planned (plans.put b.id (plan.moved n)) s ∧
        o = plan.items[n]?.map fun item => .on b.startPageId
          (some ⟨plan.batteryId, item, .int n, .int plan.items.length⟩) :=
  .of_gives (fun _ hs => h.gives_continueLoop_live hp hrole ((hs.plan? b.id).trans hplan) hc hlt
      hkeys (by rw [hs.responses]))
    fun _ hs => ⟨hs.setPlan _ _, rfl⟩

/-- Without a plan, or at the first item of one, the start page of a battery does not step back. -/
theorem gives_stepBack_first (h : nav.Oriented) (hp : p ∈ nav.pages)
    (hrole : nav.roles.ownerOf? p.id = some (b, .start))
    (hfirst : ∀ plan, s.plan? b.id = some plan → plan.rewind = .ok none) :
    Gives s (nav.stepBack p.id) (.ok none) s := by
  refine .bind (h.gives_roleOf hp) ?_
  rw [hrole]
  refine .bind (h.gives_planOf (h.mem_batteries hrole)) ?_
  cases hplan : s.plan? b.id with
  | none => exact .pure
  | some plan => exact .bind (.ofOk (hfirst plan hplan)) .pure

/-- Behind the first item it steps back to the end page. -/
theorem gives_stepBack (h : nav.Oriented) (hp : p ∈ nav.pages)
    (hrole : nav.roles.ownerOf? p.id = some (b, .start)) (hplan : s.plan? b.id = some plan)
    {q : LoopPlan} {i : Option Iteration} (hrewind : plan.rewind = .ok (some q))
    (hiteration : q.iteration = .ok i) :
    Gives s (nav.stepBack p.id) (.ok (some (.on b.endPageId i))) (s.setPlan b.id q) := by
  refine .bind (h.gives_roleOf hp) ?_
  rw [hrole]
  refine .bind (h.gives_planOf (h.mem_batteries hrole)) ?_
  rw [hplan]
  exact .bind (.ofOk hrewind) <| .bind .update <| .bind (.ofOk hiteration) .pure

end Oriented

/-! ## Where nothing is stale -/

namespace Ready

theorem yields_isShown (h : nav.Ready s₀) (hp : p ∈ nav.pages) :
    Yields (s₀.Planned plans) (nav.isShown p.id) fun v s =>
      s₀.Planned plans s ∧ v = nav.shows s₀ p := by
  refine .ite (fun hfree => .pure fun s hs => ⟨hs, ?_⟩) fun hbound => ?_
  · simp [shows, hfree]
  · obtain ⟨before, after, hsplit⟩ := List.append_of_mem hp
    have hmem : p ∈ nav.survey.pages := (sortedBy_perm _ _).mem_iff.1 (h.pages ▸ hp)
    have hskip : nav.skipHidden = true := by
      rw [Bool.or_eq_false_iff] at hbound
      simpa using hbound.1
    obtain ⟨v, hv⟩ := h.verdict hskip p hmem
    have hshows : nav.shows s₀ p = v := by
      rw [shows, hbound, hv]
      cases v <;> rfl
    refine .bind_known (h.yields_around hsplit) <| .bind .session fun t => ?_
    refine .given (p := t.context nav.survey = s₀.context nav.survey) (fun s hs => ?_)
      fun hcontext => ?_
    · rw [Session.context, hs.2, hs.1.responses, hs.1.embedded]
      rfl
    · rw [hcontext, hshows]
      refine .bind .logAll fun _ => (Yields.ofOk hv).mono (fun _ hs => hs.1) fun _ _ hs => hs

theorem yields_firstShown (h : nav.Ready s₀) : ∀ l : List Page, (∀ p ∈ l, p ∈ nav.pages) →
    Yields (s₀.Planned plans) (nav.firstShown l)
      fun o s => s₀.Planned plans s ∧ o = nav.firstOf s₀ l
  | [], _ => .pure fun _ hs => ⟨hs, rfl⟩
  | p :: r, hl => by
    refine .bind_known (h.yields_isShown (hl p (.head _))) ?_
    rw [firstOf, List.find?_cons]
    cases nav.shows s₀ p with
    | true => exact .pure fun _ hs => ⟨hs, h.inOrder.given?_id (hl p (.head _))⟩
    | false => exact h.yields_firstShown r fun q hq => hl q (.tail _ hq)

/-- The next page is the first one behind that is shown. -/
theorem yields_nextInOrder (h : nav.Ready s₀) (hsplit : nav.pages = before ++ p :: after) :
    Yields (s₀.Planned plans) (nav.nextInOrder p.id)
      fun o s => s₀.Planned plans s ∧ o = nav.firstOf s₀ after :=
  .bind_known (h.yields_around hsplit) <| h.yields_firstShown after fun q hq => by simp [hsplit, hq]

/-- A plan that fits stays where it is: none of its items is stale, and their keys are texts. -/
theorem firstLive_of_fits (h : nav.Ready s₀) (hb : b ∈ nav.survey.batteries)
    (hfits : b.Fits nav.survey s₀.responses plan) (c : Nat) :
    (∀ item ∈ plan.items, item.key.isCompound = false) ∧
      plan.firstLive (Planning.liveKeys b nav.survey s₀.responses) c = c := by
  refine ⟨fun item hitem => ?_, (LoopPlan.firstLive_of_live fun item hitem => ?_).1⟩
  · exact Value.isCompound_of_isText (h.typed.isText_key hb (hfits.items.subset hitem))
  · exact hfits.isAmong (List.mem_of_getElem? hitem)

/-- Leaving the end page of a battery moves the cursor to the next item, if there is one. -/
theorem yields_continueLoop (h : nav.Ready s₀) (hp : p ∈ nav.pages)
    (hrole : nav.roles.ownerOf? p.id = some (b, .finish)) (hplan : plans b.id = some plan)
    (hc : plan.CursorAt c) (hlt : c < plan.items.length)
    (hfits : b.Fits nav.survey s₀.responses plan) :
    Yields (s₀.Planned plans) (nav.continueLoop p.id) fun o s =>
      s₀.Planned (plans.put b.id (plan.moved (c + 1))) s ∧
        o = plan.items[c + 1]?.map fun item => .on b.startPageId
          (some ⟨plan.batteryId, item, .int (c + 1 : Nat), .int plan.items.length⟩) := by
  obtain ⟨hkeys, hn⟩ := h.firstLive_of_fits (h.mem_batteries hrole) hfits (c + 1)
  have hlive : Yields (s₀.Planned plans) (nav.continueLoop p.id) _ :=
    h.yields_continueLoop_live hp hrole hplan hc hlt hkeys
  rwa [hn] at hlive

end Ready

end Navigator

end Questionnaire
