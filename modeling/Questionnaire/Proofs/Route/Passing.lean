import Questionnaire.Proofs.Interview.Leaving
import Questionnaire.Proofs.Route.Faults

/-!
# What is passed over on the way forward

Two things make a page be passed over: it is hidden, or its battery has nothing to show. They take
turns, since behind a battery that is passed over the search goes on among pages that may be hidden,
and may come to another battery. Nothing else is passed over (`Navigator.nextPage_passes`): every
page between the one that was left and the one that is reached has one of these reasons
(`Navigator.PassedOver`), and the page that is reached is one that is shown.

The search is followed by how far it has come (`Navigator.PassedUpTo`): all pages up to a place are
passed over, and the batteries that start behind it have the plans that they had. A battery that is
passed over moves the place to its last page. What the search does there to the plan of the battery
leaves the reasons for the pages before it as they are, since no earlier page belongs to it.
-/

namespace Questionnaire

open Flow

namespace Navigator

/-! ## Reasons to pass over a page -/

/-- Why a page is passed over in a session that is left with other plans: the page is hidden and no
end of a battery; or the plan of its battery has no items in the end; or all items of that plan from
the cursor on were stale, and the cursor was moved behind the last one. -/
inductive PassedOver (nav : Navigator) (s : Session) (plans : Plans) (q : Page) : Prop
  | hidden : nav.skipHidden = true → nav.roles.isBoundary q.id = false →
      nav.verdict s q = .ok false → PassedOver nav s plans q
  | empty {b : Battery} {role : LoopRole} {plan : LoopPlan} :
      nav.roles.ownerOf? q.id = some (b, role) → plans b.id = some plan → plan.items = [] →
      PassedOver nav s plans q
  | stale {b : Battery} {role : LoopRole} {plan : LoopPlan} {c : Nat} :
      nav.roles.ownerOf? q.id = some (b, role) → s.plan? b.id = some plan → plan.CursorAt c →
      c < plan.items.length →
      (∀ item ∈ plan.items.drop c,
        item.key.isAmong (Planning.liveKeys b nav.survey s.responses) = false) →
      plans b.id = some (plan.moved plan.items.length) → PassedOver nav s plans q

/-- Leaving a page for a landing passes over every page on the way: up to the page of the landing,
which is shown, or all pages behind if the survey is completed. -/
inductive Passes (nav : Navigator) (s : Session) (p : Page) : Landing → Session → Prop
  | finished {t : Session} :
      (∀ q ∈ nav.pages, p.rank < q.rank → nav.PassedOver s t.plan? q) → Passes nav s p .finished t
  | on {q : Page} (i : Option Iteration) {t : Session} : q ∈ nav.pages → p.rank < q.rank →
      nav.shows s q = true →
      (∀ r ∈ nav.pages, p.rank < r.rank → r.rank < q.rank → nav.PassedOver s t.plan? r) →
      Passes nav s p (.on q.id i) t

/-- The first page behind a place that is shown, if there is one. -/
inductive ShownNext (nav : Navigator) (s : Session) (r : Int) : Option Id → Prop
  | none : (∀ q ∈ nav.pages, r < q.rank → nav.shows s q = false) → ShownNext nav s r none
  | some {p : Page} : p ∈ nav.pages → r < p.rank → nav.shows s p = true →
      (∀ q ∈ nav.pages, r < q.rank → q.rank < p.rank → nav.shows s q = false) →
      ShownNext nav s r (some p.id)

/-- How far a search behind a page has come: the pages up to a place are passed over, and the
batteries that start behind that place have their plans as they were. -/
structure PassedUpTo (nav : Navigator) (s : Session) (p : Page) (r : Int) (plans : Plans) :
    Prop where
  passed : ∀ q ∈ nav.pages, p.rank < q.rank → q.rank ≤ r → nav.PassedOver s plans q
  ahead : ∀ start ∈ nav.pages, r < start.rank → ∀ b,
    nav.roles.ownerOf? start.id = some (b, .start) → plans b.id = s.plan? b.id

variable {nav : Navigator} {s : Session} {plans plans' : Plans} {p q start : Page} {b : Battery}
  {role : LoopRole} {plan : LoopPlan} {r : Int} {o : Option Id}

/-- The plans of batteries that do not own a page do not matter to why it is passed over. -/
theorem PassedOver.congr (h : nav.PassedOver s plans q)
    (hsame : ∀ b role, nav.roles.ownerOf? q.id = some (b, role) → plans' b.id = plans b.id) :
    nav.PassedOver s plans' q := by
  cases h with
  | hidden hskip hfree hverdict => exact .hidden hskip hfree hverdict
  | empty howner hplan hitems => exact .empty howner ((hsame _ _ howner).trans hplan) hitems
  | stale howner hplan hc hlt hstale hmoved =>
    exact .stale howner hplan hc hlt hstale ((hsame _ _ howner).trans hmoved)

/-! ## Batteries and the order of pages -/

namespace Oriented

variable (h : nav.Oriented)
include h

/-- The page on which a battery starts is its start page. -/
theorem startPageId_eq (hstart : start ∈ nav.pages)
    (hrole : nav.roles.ownerOf? start.id = some (b, .start)) : start.id = b.startPageId :=
  Value.eq_of_agrees (h.inOrder.id start hstart)
    (RoleTable.agrees_startPageId_of_roleOf? ((h.roleOf?_eq hstart).trans hrole))

/-- No page of a battery stands before the one on which it starts. -/
theorem start_le (hstart : start ∈ nav.pages)
    (hrole : nav.roles.ownerOf? start.id = some (b, .start)) (hq : q ∈ nav.pages)
    (hqrole : nav.roles.ownerOf? q.id = some (b, role)) : start.rank ≤ q.rank := by
  obtain ⟨q', hq', hid, start', hstart', hsid, hle, -⟩ :=
    h.exists_bounds ((h.roleOf?_eq hq).trans hqrole)
  cases h.inOrder.eq_of_id hq' hq hid
  cases h.inOrder.eq_of_id hstart' hstart (hsid.trans (h.startPageId_eq hstart hrole).symm)
  exact hle

/-- A battery owns the pages from the one on which it starts to its end page. -/
theorem exists_finish (hstart : start ∈ nav.pages)
    (hrole : nav.roles.ownerOf? start.id = some (b, .start)) :
    ∃ finish ∈ nav.pages, finish.id = b.endPageId ∧ start.rank < finish.rank ∧
      ∀ q ∈ nav.pages, start.rank ≤ q.rank → q.rank ≤ finish.rank →
        ∃ role, nav.roles.ownerOf? q.id = some (b, role) := by
  have hsid := h.startPageId_eq hstart hrole
  obtain ⟨st, hst, rfl, -⟩ := RoleTable.exists_of_ownerOf? hrole
  have hL := h.inOrder
  rw [h.roles] at hst ⊢
  rw [h.pages] at hL hstart ⊢
  obtain ⟨first, finish, hends⟩ := h.typed.exists_ends hL hst
  cases hL.eq_of_id hends.start_mem hstart (hends.startId.trans hsid.symm)
  refine ⟨finish, hends.finish_mem, hends.finishId, hends.lt, fun q hq hle hle' => ?_⟩
  exact ⟨st.roleOf q.id, RoleTable.ownerOf?_of_mem (RoleTable.pairwise_ofSurvey _) hst
    ((hends.mem_iff q hq).2 ⟨hle, hle'⟩)⟩

/-- The first page of the rest that is shown is the next one behind the page before the rest. -/
theorem shownNext_firstOf {before after : List Page} (hsplit : nav.pages = before ++ p :: after) :
    nav.ShownNext s p.rank (nav.firstOf s after) := by
  have hL := h.inOrder
  rw [hsplit] at hL
  have hbehind : ∀ q ∈ nav.pages, p.rank < q.rank → q ∈ after := by
    intro q hq hlt
    rw [hsplit, List.mem_append, List.mem_cons] at hq
    rcases hq with hq | rfl | hq
    · have := hL.earlier q hq
      omega
    · omega
    · exact hq
  cases hfirst : after.find? (nav.shows s) with
  | none =>
    rw [firstOf, hfirst]
    exact .none fun q hq hlt => by simpa using List.find?_eq_none.1 hfirst q (hbehind q hq hlt)
  | some q =>
    obtain ⟨hshown, hidden, rest, rfl, hnot⟩ := List.find?_eq_some_iff_append.1 hfirst
    rw [firstOf, hfirst]
    refine .some (by simp [hsplit]) (hL.later q (by simp)) hshown fun q' hq' hlt hlt' => ?_
    have hrest : InOrder ((before ++ p :: hidden) ++ q :: rest) := by simpa using hL
    rcases List.mem_append.1 (hbehind q' hq' hlt) with hq' | hq'
    · simpa using hnot q' hq'
    · rcases List.mem_cons.1 hq' with rfl | hq'
      · omega
      · have := hrest.later q' hq'
        omega

end Oriented

namespace Ready

variable (h : nav.Ready s)
include h

/-- A page that is not shown is hidden. -/
theorem passedOver_of_shows (hq : q ∈ nav.pages) (hshown : nav.shows s q = false) :
    nav.PassedOver s plans q := by
  rw [shows, Bool.or_eq_false_iff, Bool.or_eq_false_iff, Bool.not_eq_false'] at hshown
  obtain ⟨⟨hskip, hfree⟩, hverdict⟩ := hshown
  obtain ⟨shown, hv⟩ := h.verdict hskip q ((sortedBy_perm _ _).mem_iff.1 (h.pages ▸ hq))
  rw [hv] at hverdict
  cases shown with
  | true => cases hverdict
  | false => exact .hidden hskip hfree hv

/-- A page before the one on which a battery starts is passed over whatever becomes of the plan of
the battery. -/
theorem passedOver_put (hstart : start ∈ nav.pages)
    (hrole : nav.roles.ownerOf? start.id = some (b, .start)) (hq : q ∈ nav.pages)
    (hlt : q.rank < start.rank) (hpassed : nav.PassedOver s plans q) :
    nav.PassedOver s (plans.put b.id plan) q := by
  refine hpassed.congr fun c role howner => Plans.put_of_agrees_eq_false ?_ plan
  refine h.agrees_eq_false (h.mem_batteries howner) (h.mem_batteries hrole) ?_
  rintro rfl
  have := h.start_le hstart hrole hq howner
  omega

/-- A page is passed over up to the place that a search has come to, and behind it if it is not
shown. -/
theorem passedOver_of_upTo (hup : nav.PassedUpTo s p r plans) (hq : q ∈ nav.pages)
    (hlt : p.rank < q.rank) (hidden : r < q.rank → nav.shows s q = false) :
    nav.PassedOver s plans q := by
  rcases Int.lt_or_le r q.rank with hr | hr
  · exact h.passedOver_of_shows hq (hidden hr)
  · exact hup.passed q hq hlt hr

/-- A battery that is passed over moves the search to its end page. -/
theorem passedUpTo_finish {finish : Page} (hstart : start ∈ nav.pages)
    (hrole : nav.roles.ownerOf? start.id = some (b, .start))
    (hup : nav.PassedUpTo s p r plans) (hr : r < start.rank) (hlt : start.rank < finish.rank)
    (howned : ∀ q ∈ nav.pages, start.rank ≤ q.rank → q.rank ≤ finish.rank →
      ∃ role, nav.roles.ownerOf? q.id = some (b, role))
    (hidden : ∀ q ∈ nav.pages, r < q.rank → q.rank < start.rank → nav.shows s q = false)
    (hnothing : ∀ q role, nav.roles.ownerOf? q.id = some (b, role) →
      nav.PassedOver s (plans.put b.id plan) q) :
    nav.PassedUpTo s p finish.rank (plans.put b.id plan) where
  passed q hq hpq hle := by
    rcases Int.lt_or_le q.rank start.rank with hlt | hge
    · exact h.passedOver_put hstart hrole hq hlt <|
        h.passedOver_of_upTo hup hq hpq fun hr => hidden q hq hr hlt
    · obtain ⟨role, howner⟩ := howned q hq hge hle
      exact hnothing q role howner
  ahead start' hstart' hbehind c hc := by
    rw [← hup.ahead start' hstart' (by omega) c hc]
    refine Plans.put_of_agrees_eq_false (h.agrees_eq_false (h.mem_batteries hc)
      (h.mem_batteries hrole) ?_) plan
    rintro rfl
    have := h.start_le hstart' hc hstart hrole
    omega

/-! ## The search -/

/-- When a battery is entered whose plan is as it was, its plan is stored with the cursor among the
items. If there is nothing to show, its pages are passed over. -/
theorem enter_passes (hs : s.PlansTyped) (hb : b ∈ nav.survey.batteries)
    (hplan : plans b.id = s.plan? b.id) :
    Ensures (s.Planned plans) (nav.enter b) fun x t =>
      (∃ c, x.1.CursorAt c ∧ (x.1.items = [] ∨ x.2 = false ∧ x.1.items.length ≤ c →
        ∀ q role, nav.roles.ownerOf? q.id = some (b, role) →
          nav.PassedOver s (plans.put b.id x.1) q)) ∧
        s.Planned (plans.put b.id x.1) t := by
  cases hold : s.plan? b.id with
  | none =>
    refine (h.yields_enter hb (hplan.trans hold)).ensures.mono (fun _ ht => ht) fun x t ht => ?_
    obtain ⟨⟨-, hcursor, -⟩, hplanned⟩ := ht
    refine ⟨⟨0, ⟨hcursor, Nat.zero_le _⟩, fun hnone q role howner => ?_⟩, hplanned⟩
    refine .empty howner (Plans.put_self _ _ _) ?_
    rcases hnone with hempty | ⟨-, hle⟩
    · exact hempty
    · exact List.length_eq_zero_iff.1 (Nat.le_zero.1 hle)
  | some plan =>
    obtain ⟨c, hc⟩ := hs.cursor _ _ hold
    have hkeys := hs.keys_not_compound hold
    refine (h.yields_enter_again hb (hplan.trans hold) hc hkeys).ensures.mono (fun _ ht => ht) ?_
    rintro x t ⟨hplanned, rfl⟩
    have hle : plan.firstLive (Planning.liveKeys b nav.survey s.responses) c ≤ plan.items.length :=
      LoopPlan.firstLive_le hc.le_length
    refine ⟨⟨_, LoopPlan.cursorAt_moved hle, fun hnone q role howner => ?_⟩, hplanned⟩
    rcases hnone with hempty | ⟨hopen, hend⟩
    · exact .empty howner (Plans.put_self _ _ _) hempty
    · -- The cursor went to the end in this call, so no item from it on is live.
      have hopen : c < plan.items.length := by simpa using hopen
      rw [LoopPlan.moved_items] at hend
      refine .stale howner hold hc hopen (fun item hitem => Bool.eq_false_iff.2 fun hlive => ?_) ?_
      · have := (LoopPlan.firstLive_lt_iff hc.le_length).2 ⟨item, hitem, hlive⟩
        omega
      · rw [Plans.put_self, Nat.le_antisymm hle hend]

/-- Arriving at the next page that is shown passes over what has nothing to show. -/
theorem arriveWithin_passes (hs : s.PlansTyped) : ∀ (fuel : Nat) {r : Int} {plans : Plans}
    {o : Option Id}, p.rank ≤ r → nav.PassedUpTo s p r plans → nav.ShownNext s r o →
    Ensures (s.Planned plans) (nav.arriveWithin fuel o) fun l t => nav.Passes s p l t
  | fuel, r, plans, _, _, hup, .none hidden => by
    rw [arriveWithin_none]
    refine .pure fun t ht => .finished fun q hq hlt => ?_
    rw [funext ht.plan?]
    exact h.passedOver_of_upTo hup hq hlt (hidden q hq)
  | 0, _, _, _, _, _, .some _ _ _ _ => .throw
  | fuel + 1, r, plans, _, hpr, hup, @ShownNext.some _ _ _ start hstart hr hshown hidden => by
    have hbefore : ∀ q ∈ nav.pages, p.rank < q.rank → q.rank < start.rank →
        nav.PassedOver s plans q := fun q hq hlt hlt' =>
      h.passedOver_of_upTo hup hq hlt fun hr => hidden q hq hr hlt'
    refine .bind (h.yields_roleOf hstart).ensures fun owner =>
      .given (fun _ ht => ht.2) fun howner => ?_
    split
    · next b =>
      have hb := h.mem_batteries howner.symm
      have henter := h.enter_passes hs hb (hup.ahead start hstart hr b howner.symm)
      refine .bind (henter.mono (fun _ ht => ht.1) fun _ _ ht => ht) fun ⟨plan, wasComplete⟩ => ?_
      refine .given (fun _ ht => ht.1) fun ⟨c, hc, hnothing⟩ => ?_
      refine .bind_ofOk hc.isComplete <| .ite (fun _ => ?_) fun hskip => ?_
      · refine .bind Keeps.ofResult fun i => .pure fun t ht => .on i hstart (by omega) hshown ?_
        rw [funext ht.2.plan?]
        exact fun q hq hlt hlt' =>
          h.passedOver_put hstart howner.symm hq hlt' (hbefore q hq hlt hlt')
      · obtain ⟨finish, hfinish, hfid, hlt, howned⟩ := h.exists_finish hstart howner.symm
        obtain ⟨before, after, hsplit⟩ := List.append_of_mem hfinish
        have hempty : plan.items = [] ∨ wasComplete = false ∧ plan.items.length ≤ c := by
          simpa [or_iff_not_imp_left] using hskip
        rw [← hfid]
        refine .bind Keeps.log fun _ => .bind ((h.yields_nextInOrder hsplit).ensures.mono
          (fun _ ht => ht.2) fun _ _ ht => ht) fun o => .given (fun _ ht => ht.2) ?_
        rintro rfl
        have hfar := h.passedUpTo_finish hstart howner.symm hup hr hlt howned hidden
          (hnothing hempty)
        exact (arriveWithin_passes hs fuel (by omega) hfar (h.shownNext_firstOf hsplit)).mono
          (fun _ ht => ht.1) fun _ _ hl => hl
    · refine .bind (preserves_iterationOf start.id).keeps fun i => .pure fun t ht => ?_
      refine .on i hstart (by omega) hshown ?_
      rw [funext ht.1.plan?]
      exact hbefore

/-- Leaving a page starts another iteration, or the search begins behind the page: no plan has
changed but that of the battery that ends on the page. -/
theorem continueLoop_passes (hs : s.PlansTyped) (hp : p ∈ nav.pages) :
    Ensures (s.Planned s.plan?) (nav.continueLoop p.id) fun o t =>
      (∀ l, o = some l → nav.Restarts s p.id l) ∧
        (o = none → ∃ plans, s.Planned plans t ∧ nav.PassedUpTo s p p.rank plans) := by
  refine (h.continueLoop_yields hs hp).ensures.mono (fun _ ht => ht) ?_
  rintro o t (⟨ht, rfl⟩ | ⟨b, plan, c, n, hrole, hplan, hc, -, rfl, ht, rfl⟩)
  · exact ⟨nofun, fun _ => ⟨_, ht, fun q _ hlt hle => by omega, fun _ _ _ _ _ => rfl⟩⟩
  · refine ⟨fun l hl => ?_, fun _ => ⟨_, ht, fun q _ hlt hle => by omega, ?_⟩⟩
    · obtain ⟨item, hitem, rfl⟩ := Option.map_eq_some_iff.1 hl
      exact ⟨b, .finish, plan, c, _, item, (h.roleOf?_eq hp).trans hrole, hplan, hc,
        LoopPlan.le_firstLive, hitem, rfl⟩
    · intro start hstart hbehind b' hb'
      refine Plans.put_of_agrees_eq_false (h.agrees_eq_false (h.mem_batteries hb')
        (h.mem_batteries hrole) ?_) _
      rintro rfl
      have := h.start_le hstart hb' hp hrole
      omega

/-- Leaving a page starts another iteration or passes over what has nothing to show. -/
theorem restarts_or_passes (hs : s.PlansTyped) (hp : p ∈ nav.pages) :
    Ensures (s.Planned s.plan?) (nav.nextPage p.id) fun l t =>
      nav.Restarts s p.id l ∨ nav.Passes s p l t := by
  obtain ⟨before, after, hsplit⟩ := List.append_of_mem hp
  refine .bind (preserves_around p.id).keeps fun _ =>
    .bind (h.continueLoop_passes hs hp) fun o => ?_
  cases o with
  | some l => exact .pure fun t ht => .inl (ht.1 l rfl)
  | none =>
    rintro d l d' ⟨-, hsearch⟩ hperform
    obtain ⟨plans, hplanned, hup⟩ := hsearch rfl
    have honward : Ensures (s.Planned plans) (do nav.arrive (← nav.nextInOrder p.id))
        fun l t => nav.Passes s p l t := by
      refine .bind (h.yields_nextInOrder hsplit).ensures fun o => .given (fun _ ht => ht.2) ?_
      rintro rfl
      exact (h.arriveWithin_passes hs _ (Int.le_refl _) hup (h.shownNext_firstOf hsplit)).mono
        (fun _ ht => ht.1) fun _ _ hl => hl
    exact .inr (honward d l d' hplanned hperform)

end Ready

/-- Going forward skips nothing that is to be shown. Take a survey whose parts have the declared
types, and whose page ids, page indexes and battery ids are distinct, a session whose cursors are
among the items of its plans and for which there is a verdict on every page that may be hidden, and
any page. Leaving the page leads somewhere. Unless it starts another iteration of the battery that
owns the page, it leads to a page behind that is shown, or completes the survey. Every page between,
or every page behind, is hidden and no end of a battery, or is owned by a battery with nothing to
show: the plan that the battery is left with has no items, or the call moved its cursor to the end
because all items that were left were stale. -/
theorem nextPage_passes {survey : Survey} (htyped : survey.Typed) (hdistinct : survey.Distinct)
    (skipHidden quiet : Bool) {d : Desk} (hs : d.session.PlansTyped)
    (hverdict : skipHidden = true → ∀ p ∈ survey.pages,
      ∃ shown, (ofSurvey survey skipHidden quiet).verdict d.session p = .ok shown)
    {p : Page} (hp : p ∈ survey.pages) :
    let nav := ofSurvey survey skipHidden quiet
    ∃ l d', (nav.nextPage p.id).perform d = (.ok l, d') ∧
      (¬nav.Restarts d.session p.id l → nav.Passes d.session p l d'.session) := by
  intro nav
  have h : nav.Ready d.session := .ofSurvey htyped hdistinct hverdict
  have hmem {q : Page} : q ∈ nav.pages ↔ q ∈ survey.pages := (sortedBy_perm _ _).mem_iff
  have hp := hmem.2 hp
  rcases hperform : (nav.nextPage p.id).perform d with ⟨e | l, d'⟩
  · obtain ⟨hskip, q, hq, he⟩ := h.nextPage_failsOnly hp d e d' (.refl hs) hperform
    obtain ⟨shown, hshown⟩ := hverdict hskip q (hmem.1 hq)
    cases he.symm.trans hshown
  · have hpasses := h.restarts_or_passes hs hp d l d' d.session.planned_self hperform
    exact ⟨l, d', rfl, hpasses.resolve_left⟩

end Navigator

namespace Sample.BrandTracker

/-- The respondent once all brands are taken back. -/
def revoked : Session := midway.respond (.text "q_aware") (.list [])

theorem plansTyped_revoked : revoked.PlansTyped :=
  ⟨plansTyped_midway.cursor, plansTyped_midway.keys⟩

end Sample.BrandTracker

open Sample BrandTracker in
/-- The first page is left when all items of the plan over the brands are stale. -/
theorem Navigator.nextPage_passes_revoked :
    let nav := ofSurvey (BrandTracker.survey (.int 2)) true false
    ∃ l d', (nav.nextPage (.text "p_screen")).perform ⟨revoked, .ofScript [0], []⟩ = (.ok l, d') ∧
      nav.Passes revoked (plainPage "p_screen" 0 "About you") l d'.session := by
  intro nav
  have hjudged : ∀ p ∈ (BrandTracker.survey (.int 2)).pages,
      (nav.verdict revoked p).isOk = true := by decide +kernel
  have hnav : nav = navigator := ofSurvey_survey
  have hfree : nav.roles.roleOf? (.text "p_screen") = none := by
    rw [hnav]
    decide +kernel
  obtain ⟨l, d', hperform, hpasses⟩ := nextPage_passes typed distinct true false
    (d := ⟨revoked, .ofScript [0], []⟩) plansTyped_revoked
    (fun _ p hp => exists_verdict (hjudged p hp))
    (p := plainPage "p_screen" 0 "About you") (.head _)
  refine ⟨l, d', hperform, hpasses ?_⟩
  rintro ⟨b, role, -, -, -, -, hrole, -⟩
  cases hfree.symm.trans hrole

end Questionnaire
