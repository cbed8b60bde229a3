import Questionnaire.Proofs.Route.Walk

/-!
# When another iteration starts

Leaving a page starts another iteration of the battery that owns the page if it leads to the start
page of the battery with a later item of its plan (`Navigator.Restarts`). It does so exactly if the
page is the end of the battery and an item behind the cursor is live
(`Oriented.nextPage_restarts_iff`): what is not the start of another iteration leads to pages behind
the one that was left (`Oriented.nextPage_behind`), and the battery starts before those.

`Navigator.continuesLoop` only asks whether there is an item behind the cursor
(`Oriented.yields_continuesLoop`).
-/

namespace Questionnaire

open Flow

/-- A session whose stored plans have the types that they are declared with: texts for the keys of
the items, and cursors from zero to the number of items. -/
structure Session.PlansTyped (s : Session) : Prop where
  cursor : ∀ id p, s.plan? id = some p → ∃ c, p.CursorAt c
  keys : ∀ id p, s.plan? id = some p → ∀ item ∈ p.items, item.key.isText = true

/-- The keys of a plan's items are not lists or mappings. -/
theorem Session.PlansTyped.keys_not_compound {s : Session} {p : LoopPlan} (h : s.PlansTyped)
    {id : Id} (hp : s.plan? id = some p) : ∀ item ∈ p.items, item.key.isCompound = false :=
  fun item hitem => Value.isCompound_of_isText (h.keys id p hp item hitem)

namespace Navigator

/-! ## Landing behind a page -/

/-- Nowhere, or on a page behind a place. -/
def Behind (nav : Navigator) (r : Int) (o : Option Id) : Prop :=
  ∀ id, o = some id → ∃ q ∈ nav.pages, q.id = id ∧ r < q.rank

variable {nav : Navigator} {s s₀ : Session} {P : Session → Prop} {p : Page} {b : Battery}
  {role : LoopRole} {r : Int} {page : Id}

theorem Behind.mono {r' : Int} {o : Option Id} (h : nav.Behind r o) (hr : r' ≤ r) :
    nav.Behind r' o := by
  intro id hid
  obtain ⟨q, hq, hqid, hlt⟩ := h id hid
  exact ⟨q, hq, hqid, by omega⟩

/-- The first page of a list that is shown is one of the list. -/
theorem firstShown_ensures : ∀ l : List Page, Ensures P (nav.firstShown l) fun o _ =>
    ∀ id, o = some id → ∃ q ∈ l, q.id = id
  | [] => .pure fun _ _ _ h => nomatch h
  | p :: r => by
    refine .bind (preserves_isShown p.id).keeps fun _ => .ite (fun _ => .pure ?_) fun _ => ?_
    · intro _ _ id hid
      refine ⟨p, .head _, ?_⟩
      cases hp : p.id <;> rw [hp] at hid <;> cases hid <;> rfl
    · refine (firstShown_ensures r).mono (fun _ hs => hs) fun o _ ho id hid => ?_
      obtain ⟨q, hq, hqid⟩ := ho id hid
      exact ⟨q, .tail _ hq, hqid⟩

namespace Oriented

theorem nextInOrder_behind (h : nav.Oriented) (hp : p ∈ nav.pages) :
    Ensures P (nav.nextInOrder p.id) fun o _ => nav.Behind p.rank o := by
  obtain ⟨before, after, hsplit⟩ := List.append_of_mem hp
  have hL := h.inOrder
  rw [hsplit] at hL
  refine .bind (h.yields_around hsplit).ensures fun x => .given (fun _ hs => hs.2) fun hx => ?_
  subst hx
  refine (firstShown_ensures after).mono (fun _ hs => hs) fun o _ ho id hid => ?_
  obtain ⟨q, hq, hqid⟩ := ho id hid
  exact ⟨q, by simp [hsplit, hq], hqid, hL.later q hq⟩

/-- A page with a role is a page of the survey, between the start page of its battery and the end
page. -/
theorem exists_bounds (h : nav.Oriented) (hrole : nav.roles.roleOf? page = some (b, role)) :
    ∃ p ∈ nav.pages, p.id = page ∧
      ∃ start ∈ nav.pages, start.id = b.startPageId ∧ start.rank ≤ p.rank ∧
        ∃ finish ∈ nav.pages, finish.id = b.endPageId ∧ p.rank ≤ finish.rank := by
  obtain ⟨v, hv, howner⟩ := Option.bind_eq_some_iff.1 hrole
  have hv : v = page := by cases page <;> cases hv <;> rfl
  obtain ⟨st, hst, rfl, hin, -⟩ := RoleTable.exists_of_ownerOf? (hv ▸ howner)
  rw [h.roles] at hst
  have hL := h.inOrder
  rw [h.pages] at hL ⊢
  obtain ⟨start, finish, hends⟩ := h.typed.exists_ends hL hst
  obtain ⟨j, hj, hagree⟩ := List.any_eq_true.1 hin
  obtain ⟨p, hp, rfl⟩ := Survey.exists_page_of_batteryPages?
    (RoleTable.mem_batteries_of_mem_stretches hst).2 hj
  have hid : p.id = page := Value.eq_of_agrees (hL.id p hp) hagree
  obtain ⟨hle, hle'⟩ := (hends.mem_iff p hp).1 (hid ▸ hin)
  exact ⟨p, hp, hid, start, hends.start_mem, hends.startId, hle, finish, hends.finish_mem,
    hends.finishId, hle'⟩

/-- Arriving at a page leads to no page before it. -/
theorem arriveWithin_behind (h : nav.Oriented) : ∀ (fuel : Nat) (o : Option Id), nav.Behind r o →
    Ensures (fun _ => True) (nav.arriveWithin fuel o) fun l _ => nav.Behind r l.pageId
  | 0, none, ho | _ + 1, none, ho => .pure fun _ _ => ho
  | 0, some _, _ => .throw
  | fuel + 1, some id, ho => by
    obtain ⟨p, hp, rfl, hr⟩ := ho id rfl
    have hon : ∀ i, nav.Behind r (Landing.on p.id i).pageId := by
      intro i id hid
      have hid : p.id.given? = some id := hid
      rw [h.inOrder.given?_id hp] at hid
      cases hid
      exact ⟨p, hp, rfl, hr⟩
    refine .bind (h.yields_roleOf hp).ensures fun role => .given (fun _ hs => hs.2) fun hrole => ?_
    split
    · next b =>
      rw [← h.roleOf?_eq hp] at hrole
      obtain ⟨p', hp', hid, -, -, -, -, finish, hfinish, hfid, hle⟩ := h.exists_bounds hrole.symm
      cases h.inOrder.eq_of_id hp' hp hid
      refine .bind (Q := fun _ _ => True) (fun _ _ _ _ _ => trivial) fun x => ?_
      refine .bind Keeps.ofResult fun _ => .ite (fun _ => ?_) fun _ => ?_
      · exact .bind Keeps.ofResult fun _ => .pure fun _ _ => hon _
      · rw [← hfid]
        refine .bind Keeps.log fun _ => .bind (h.nextInOrder_behind hfinish) fun o => ?_
        refine .given (fun _ hs => hs) fun hbehind => ?_
        have hrest := arriveWithin_behind h fuel o (hbehind.mono (by omega : r ≤ finish.rank))
        exact hrest.mono (fun _ _ => trivial) fun _ _ hl => hl
    · exact .bind (preserves_iterationOf p.id).keeps fun _ => .pure fun _ _ => hon _

/-- Leaving a page without starting another iteration leads behind the page. -/
theorem nextPage_behind (h : nav.Oriented) (hp : p ∈ nav.pages)
    (hnone : Ensures P (nav.continueLoop p.id) fun o _ => o = none) :
    Ensures P (nav.nextPage p.id) fun l _ => nav.Behind p.rank l.pageId := by
  refine .bind (preserves_around p.id).keeps fun _ => .bind hnone fun o => .given (fun _ hs => hs)
    fun ho => ?_
  subst ho
  refine .bind (h.nextInOrder_behind hp) fun o => .given (fun _ hs => hs) fun ho => ?_
  exact (h.arriveWithin_behind _ o ho).mono (fun _ _ => trivial) fun _ _ hl => hl

end Oriented

/-! ## Starting another iteration -/

/-- A landing on the start page of the battery that owns a page, with an item of its plan behind the
cursor. -/
def Restarts (nav : Navigator) (s : Session) (page : Id) (l : Landing) : Prop :=
  ∃ b role p c n item, nav.roles.roleOf? page = some (b, role) ∧ s.plan? b.id = some p ∧
    p.CursorAt c ∧ c < n ∧ p.items[n]? = some item ∧
    l = .on b.startPageId (some ⟨p.batteryId, item, .int n, .int p.items.length⟩)

/-- The page is the end of a battery, and there is an item behind the cursor of its plan. -/
def HasNext (nav : Navigator) (s : Session) (page : Id) : Prop :=
  ∃ b p c, nav.roles.roleOf? page = some (b, .finish) ∧ s.plan? b.id = some p ∧ p.CursorAt c ∧
    c + 1 < p.items.length

/-- The page is the end of a battery, and an item behind the cursor of its plan is live. -/
def HasLiveNext (nav : Navigator) (s : Session) (page : Id) : Prop :=
  ∃ b p c, nav.roles.roleOf? page = some (b, .finish) ∧ s.plan? b.id = some p ∧ p.CursorAt c ∧
    ∃ item ∈ p.items.drop (c + 1),
      item.key.isAmong (Planning.liveKeys b nav.survey s.responses) = true

namespace Oriented

/-- A battery starts at no page behind one of its own. -/
theorem not_restarts_of_behind (h : nav.Oriented) (hp : p ∈ nav.pages) {l : Landing}
    (hbehind : nav.Behind p.rank l.pageId) : ¬nav.Restarts s p.id l := by
  rintro ⟨b, role, plan, c, n, item, hrole, -, -, -, -, rfl⟩
  obtain ⟨p', hp', hid, start, hstart, hsid, hle, -⟩ := h.exists_bounds hrole
  cases h.inOrder.eq_of_id hp' hp hid
  have hgiven : b.startPageId.given? = some start.id := by
    rw [← hsid, h.inOrder.given?_id hstart]
  obtain ⟨q, hq, hqid, hlt⟩ := hbehind _ hgiven
  cases h.inOrder.eq_of_id hq hstart hqid
  omega

/-- What becomes of the plan of the battery that ends on a page: if it is open, its cursor is moved
to the next live item, and if there is one, another iteration starts. Else nothing happens. -/
theorem continueLoop_yields (h : nav.Oriented) (hs : s.PlansTyped) (hp : p ∈ nav.pages) :
    Yields (s.Planned s.plan?) (nav.continueLoop p.id) fun o t =>
      (s.Planned s.plan? t ∧ o = none) ∨ ∃ b plan c n,
        nav.roles.ownerOf? p.id = some (b, .finish) ∧ s.plan? b.id = some plan ∧
        plan.CursorAt c ∧ c < plan.items.length ∧
        n = plan.firstLive (Planning.liveKeys b nav.survey s.responses) (c + 1) ∧
        s.Planned (Plans.put s.plan? b.id (plan.moved n)) t ∧
        o = plan.items[n]?.map fun item => .on b.startPageId
          (some ⟨plan.batteryId, item, .int n, .int plan.items.length⟩) := by
  by_cases hfinish : ∃ b, nav.roles.ownerOf? p.id = some (b, .finish)
  · obtain ⟨b, hrole⟩ := hfinish
    by_cases hmore : ∃ plan c, s.plan? b.id = some plan ∧ plan.CursorAt c ∧ c < plan.items.length
    · obtain ⟨plan, c, hplan, hc, hlt⟩ := hmore
      exact (h.yields_continueLoop_live hp hrole hplan hc hlt (hs.keys_not_compound hplan)).mono
        (fun _ ht => ht) fun o t ht =>
          .inr ⟨b, plan, c, _, hrole, hplan, hc, hlt, rfl, ht.1, ht.2⟩
    · refine (h.yields_continueLoop_of_done hp hrole fun plan hplan => ?_).mono
        (fun _ ht => ht) fun _ _ ht => .inl ht
      obtain ⟨c, hc⟩ := hs.cursor _ _ hplan
      rw [hc.isComplete, decide_eq_true]
      exact Nat.le_of_not_lt fun hlt => hmore ⟨plan, c, hplan, hc, hlt⟩
  · exact (h.yields_continueLoop_of_ne hp fun b hb => hfinish ⟨b, hb⟩).mono
      (fun _ ht => ht) fun _ _ ht => .inl ht

theorem continueLoop_of_not_live (h : nav.Oriented) (hs : s.PlansTyped) (hp : p ∈ nav.pages)
    (hno : ¬nav.HasLiveNext s p.id) :
    Ensures (s.Planned s.plan?) (nav.continueLoop p.id) fun o _ => o = none := by
  refine (h.continueLoop_yields hs hp).ensures.mono (fun _ ht => ht) ?_
  rintro o t (⟨-, ho⟩ | ⟨b, plan, c, n, hrole, hplan, hc, hlt, rfl, -, ho⟩)
  · exact ho
  · have hlast : ¬plan.firstLive (Planning.liveKeys b nav.survey s.responses) (c + 1) <
        plan.items.length := fun hlive =>
      hno ⟨b, plan, c, (h.roleOf?_eq hp).trans hrole, hplan, hc,
        (LoopPlan.firstLive_lt_iff hlt).1 hlive⟩
    rw [ho, List.getElem?_eq_none (by omega)]
    rfl

/-- Leaving a page starts another iteration exactly if an item behind the cursor is live. -/
theorem nextPage_restarts_iff (h : nav.Oriented) {d : Desk} (hs : d.session.PlansTyped)
    (page : Id) :
    (∃ l d', (nav.nextPage page).perform d = (.ok l, d') ∧ nav.Restarts d.session page l) ↔
      nav.HasLiveNext d.session page := by
  constructor
  · rintro ⟨l, d', hperform, hrestarts⟩
    obtain ⟨b, role, -, -, -, -, hrole, -⟩ := id hrestarts
    obtain ⟨p, hp, rfl, -⟩ := h.exists_bounds hrole
    by_contra hno
    have hbehind := h.nextPage_behind hp (h.continueLoop_of_not_live hs hp hno)
    exact h.not_restarts_of_behind hp (hbehind d l d' d.session.planned_self hperform) hrestarts
  · rintro ⟨b, plan, c, hrole, hplan, hc, item, hitem, hlive⟩
    obtain ⟨p, hp, rfl, -⟩ := h.exists_bounds hrole
    have hlt : c + 1 < plan.items.length := by
      have hpos := List.length_pos_of_mem hitem
      rw [List.length_drop] at hpos
      omega
    have hkeys := hs.keys_not_compound hplan
    obtain ⟨before, after, hsplit⟩ := List.append_of_mem hp
    have howner : nav.roles.ownerOf? p.id = some (b, .finish) := (h.roleOf?_eq hp).symm.trans hrole
    have hfirst := (LoopPlan.firstLive_lt_iff (by omega)).2 ⟨item, hitem, hlive⟩
    have hnext : Yields (d.session.Planned d.session.plan?) (nav.nextPage p.id) fun l _ =>
        nav.Restarts d.session p.id l := by
      refine .bind_known (h.yields_around hsplit) <|
        .bind_known (h.yields_continueLoop_live hp howner hplan hc (by omega) hkeys) ?_
      rw [List.getElem?_eq_getElem hfirst]
      refine .pure fun _ _ => ⟨b, .finish, plan, c, _, _, hrole, hplan, hc, ?_,
        List.getElem?_eq_getElem hfirst, rfl⟩
      exact LoopPlan.le_firstLive
    exact (hnext d d.session.planned_self).imp fun _ ⟨d', hnext⟩ => ⟨d', hnext⟩

theorem hasNext_iff {plan : LoopPlan} {c : Nat}
    (hrole : nav.roles.roleOf? page = some (b, .finish)) (hplan : s.plan? b.id = some plan)
    (hc : plan.CursorAt c) : nav.HasNext s page ↔ c + 1 < plan.items.length := by
  refine ⟨fun ⟨b', plan', c', hrole', hplan', hc', hlt⟩ => ?_, fun hlt =>
    ⟨b, plan, c, hrole, hplan, hc, hlt⟩⟩
  cases hrole.symm.trans hrole'
  cases hplan.symm.trans hplan'
  rwa [hc.unique hc']

/-- Whether another iteration is announced: there is an item behind the cursor. -/
theorem yields_continuesLoop (h : nav.Oriented) (hs : s.PlansTyped) (hp : p ∈ nav.pages) :
    Yields (s.Planned s.plan?) (nav.continuesLoop p.id) fun more t =>
      s.Planned s.plan? t ∧ (more = true ↔ nav.HasNext s p.id) := by
  refine .bind_known (h.yields_roleOf hp) ?_
  rw [← h.roleOf?_eq hp]
  split
  · next b hrole =>
    have howner : nav.roles.ownerOf? p.id = some (b, .finish) := (h.roleOf?_eq hp).symm.trans hrole
    refine .bind_known (h.yields_planOf (h.mem_batteries howner)) ?_
    cases hplan : s.plan? b.id with
    | none =>
      refine .pure fun t ht => ⟨ht, fun hmore => absurd hmore Bool.false_ne_true, ?_⟩
      rintro ⟨b', plan, c, hrole', hplan', -⟩
      cases hrole.symm.trans hrole'
      cases hplan.symm.trans hplan'
    | some plan =>
      obtain ⟨c, hc⟩ := hs.cursor _ _ hplan
      refine (Yields.ofOk hc.hasNext).mono (fun _ ht => ht) fun more t ht => ⟨ht.1, ?_⟩
      rw [ht.2, decide_eq_true_iff, hasNext_iff hrole hplan hc]
  · next hno =>
    refine .pure fun t ht => ⟨ht, fun hmore => absurd hmore Bool.false_ne_true, ?_⟩
    rintro ⟨b, plan, c, hrole, -⟩
    exact absurd hrole (hno b)

/-- Whether another iteration is announced depends on the session alone. -/
theorem continuesLoop_iff (h : nav.Oriented) {d : Desk} (hs : d.session.PlansTyped) (page : Id) :
    ((nav.continuesLoop page).perform d).1 = .ok true ↔ nav.HasNext d.session page := by
  cases hrole : nav.roles.roleOf? page with
  | some owner =>
    obtain ⟨b, role⟩ := owner
    obtain ⟨p, hp, rfl, -⟩ := h.exists_bounds hrole
    obtain ⟨more, d', hperform, -, hmore⟩ := h.yields_continuesLoop hs hp d d.session.planned_self
    rw [hperform, Except.ok.injEq, hmore]
  | none =>
    -- A page without a role, known or not, is asked about in vain.
    have hnever : Ensures (fun _ => True) (nav.continuesLoop page) fun more _ => more = false := by
      refine bind_roleOf ?_
      rw [hrole]
      exact .pure fun _ _ => rfl
    constructor
    · intro hmore
      cases hnever d true _ trivial (Prod.ext hmore rfl)
    · rintro ⟨b, plan, c, hrole', -⟩
      cases hrole.symm.trans hrole'

theorem continuesLoop_tells (h : nav.Oriented) (hs : s.PlansTyped) (page : Id) :
    Ensures (· = s) (nav.continuesLoop page) fun more t =>
      t = s ∧ (more = true ↔ nav.HasNext s page) := by
  rintro d more d' rfl hperform
  have hkept := (preserves_continuesLoop (P := (· = d.session)) page).keeps d more d' rfl hperform
  refine ⟨hkept, ?_⟩
  rw [← h.continuesLoop_iff hs, hperform, Except.ok.injEq]

theorem nextPage_restarts (h : nav.Oriented) (hs : s.PlansTyped)
    (hnext : nav.HasLiveNext s page) :
    Ensures (· = s) (nav.nextPage page) fun l _ => nav.Restarts s page l := by
  rintro d l d' rfl hperform
  obtain ⟨l', e, hperform', hrestarts⟩ := (h.nextPage_restarts_iff hs page).2 hnext
  cases hperform.symm.trans hperform'
  exact hrestarts

end Oriented

end Navigator

end Questionnaire
