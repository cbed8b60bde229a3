import Questionnaire.Proofs.Route.Arriving
import Questionnaire.Sample.BrandTracker

/-!
# Walking forward

A respondent is led to the first page, and leaves every page forward until the survey is completed
(`Navigator.ForwardWalk`). What the respondent visits can be told without walking: the pages in
order, with the block of every battery in place of its start page, once per item of its plan
(`Navigator.unrolling`). `forwardWalk_unrolling` says that there is one such walk, that it ends, and
that its visits are these.

The proof goes over the segments of the survey, from the last one to the first
(`Ready.completes_segments`). Within a block it goes over the items that are left
(`Ready.completes_passes`), and within a pass over the pages that are left
(`Ready.completes_inner`). What is said of each is that work which leads to a landing can be
followed by a walk to the end, and which visits that makes (`Completes`).
-/

namespace Questionnaire

open Flow

/-- A page that a respondent is led to, with the item for which it is shown. -/
abbrev Visit := Id × Option LoopItem

/-- The items of the plan that a session has for a battery. -/
def Session.itemsOf (s : Session) (b : Battery) : List LoopItem :=
  ((s.plan? b.id).map LoopPlan.items).getD []

namespace Navigator

/-! ## Walks and their unrolling -/

/-- The visits from a landing on, if every page is left forward until the survey is completed. -/
inductive Walk (nav : Navigator) : Landing → Desk → List Visit → Desk → Prop
  | completed {l : Landing} {d : Desk} : l.completed = true → Walk nav l d [] d
  | onward {l l' : Landing} {d d' d'' : Desk} {id : Id} {visits : List Visit} :
      l.completed = false → l.pageId = some id → (nav.nextPage id).perform d = (.ok l', d') →
      Walk nav l' d' visits d'' →
      Walk nav l d ((id, l.iteration.map Iteration.item) :: visits) d''

/-- The visits from the first page on. -/
def ForwardWalk (nav : Navigator) (d : Desk) (visits : List Visit) (d' : Desk) : Prop :=
  ∃ l d₁, nav.firstPage.perform d = (.ok l, d₁) ∧ nav.Walk l d₁ visits d'

/-- The pages of a battery, in order. -/
def blockOf (nav : Navigator) (b : Battery) : List Page :=
  nav.pages.filter fun p => (nav.roles.ownerOf? p.id).any fun owner => decide (owner.1 = b)

/-- The visits of the pages of a list that are shown, for one item. -/
def pass (nav : Navigator) (s : Session) (pages : List Page) (item : LoopItem) : List Visit :=
  (pages.filter (nav.shows s)).map fun p => (p.id, some item)

/-- The visits in place of a page: the page itself if no battery owns it and it is shown, and for
the start page of a battery all its pages, once per item. -/
def visitsAt (nav : Navigator) (s : Session) (p : Page) : List Visit :=
  match nav.roles.ownerOf? p.id with
  | none => if nav.shows s p then [(p.id, none)] else []
  | some (b, .start) => (s.itemsOf b).flatMap (nav.pass s (nav.blockOf b))
  | some _ => []

/-- The visits in a segment, if the pages are shown as in one session and the plans are those of
another. -/
def visitsIn (nav : Navigator) (s₀ s : Session) : Segment → List Visit
  | .single p => if nav.shows s₀ p then [(p.id, none)] else []
  | .block b start inner finish =>
    (s.itemsOf b).flatMap (nav.pass s₀ (start :: (inner ++ [finish])))

/-- The visits of a respondent who walks forward, with the plans of a session. -/
def unrolling (nav : Navigator) (s : Session) : List Visit := nav.pages.flatMap (nav.visitsAt s)

variable {nav : Navigator}

theorem pass_cons (s : Session) (item : LoopItem) (p : Page) (l : List Page) :
    nav.pass s (p :: l) item =
      (if nav.shows s p then [(p.id, some item)] else []) ++ nav.pass s l item := by
  unfold pass
  rw [List.filter_cons]
  split <;> rfl

theorem Walk.unique {l : Landing} {d d₁ d₂ : Desk} {visits visits' : List Visit}
    (h : nav.Walk l d visits d₁) (h' : nav.Walk l d visits' d₂) : visits = visits' ∧ d₁ = d₂ := by
  induction h generalizing visits' with
  | completed hc =>
    cases h' with
    | completed => exact ⟨rfl, rfl⟩
    | onward hc' => rw [hc] at hc'; cases hc'
  | onward hc hid hnext _ ih =>
    cases h' with
    | completed hc' => rw [hc] at hc'; cases hc'
    | onward _ hid' hnext' hwalk =>
      rw [hid, Option.some.injEq] at hid'
      subst hid'
      rw [hnext, Prod.mk.injEq, Except.ok.injEq] at hnext'
      obtain ⟨rfl, rfl⟩ := hnext'
      obtain ⟨rfl, rfl⟩ := ih hwalk
      exact ⟨rfl, rfl⟩

theorem ForwardWalk.unique {d d₁ d₂ : Desk} {visits visits' : List Visit}
    (h : nav.ForwardWalk d visits d₁) (h' : nav.ForwardWalk d visits' d₂) :
    visits = visits' ∧ d₁ = d₂ := by
  obtain ⟨l, e, hfirst, hwalk⟩ := h
  obtain ⟨l', e', hfirst', hwalk'⟩ := h'
  rw [hfirst, Prod.mk.injEq, Except.ok.injEq] at hfirst'
  obtain ⟨rfl, rfl⟩ := hfirst'
  exact hwalk.unique hwalk'

/-! ## Work that a walk follows -/

/-- Work that leads to a landing from which there is a walk to the end, and what is true of the
visits and the session after the walk. -/
def Completes (nav : Navigator) (P : Session → Prop) (f : Flow Landing)
    (Φ : List Visit → Session → Prop) : Prop :=
  ∀ d, P d.session → ∃ l d₁ visits d₂, f.perform d = (.ok l, d₁) ∧ nav.Walk l d₁ visits d₂ ∧
    Φ visits d₂.session

namespace Completes

variable {P P' Q : Session → Prop} {f : Flow Landing} {Φ Ψ : List Visit → Session → Prop} {α : Type}
  {g : Flow α} {k : α → Flow Landing}

theorem mono (h : nav.Completes P f Φ) (hΦ : ∀ visits s, Φ visits s → Ψ visits s) :
    nav.Completes P f Ψ := by
  intro d hP
  obtain ⟨l, d₁, visits, d₂, hf, hwalk, hΦd⟩ := h d hP
  exact ⟨l, d₁, visits, d₂, hf, hwalk, hΦ _ _ hΦd⟩

theorem bind {R : α → Session → Prop} (hg : Yields P g R)
    (hk : ∀ a, nav.Completes (R a) (k a) Φ) : nav.Completes P (g >>= k) Φ := by
  intro d hP
  obtain ⟨a, d₁, h₁, hR⟩ := hg d hP
  obtain ⟨l, d₂, visits, d₃, h₂, hwalk, hΦ⟩ := hk a d₁ hR
  exact ⟨l, d₂, visits, d₃, by rw [perform_bind, h₁]; exact h₂, hwalk, hΦ⟩

theorem bind_known {v : α} (hg : Yields P g fun a s => P' s ∧ a = v)
    (hk : nav.Completes P' (k v) Φ) : nav.Completes P (g >>= k) Φ := by
  refine bind hg fun a d h => ?_
  rw [h.2]
  exact hk d h.1

theorem given {φ : Prop} (h : ∀ s, P s → φ) (hf : φ → nav.Completes P f Φ) :
    nav.Completes P f Φ := fun d hP => hf (h _ hP) d hP

/-- The end of the survey. -/
theorem finished (h : ∀ s, P s → Φ [] s) : nav.Completes P (pure .finished) Φ :=
  fun d hP => ⟨.finished, d, [], d, rfl, .completed rfl, h _ hP⟩

/-- A landing on a page that is left forward. -/
theorem visit {id : Id} {i : Option Iteration} (hid : id.isText = true)
    (hf : Yields P f fun l s => Q s ∧ l = .on id i)
    (hnext : nav.Completes Q (nav.nextPage id) fun visits s =>
      Φ ((id, i.map Iteration.item) :: visits) s) : nav.Completes P f Φ := by
  intro d hP
  obtain ⟨l, d₁, h₁, hQ, rfl⟩ := hf d hP
  obtain ⟨l', d₂, visits, d₃, h₂, hwalk, hΦ⟩ := hnext d₁ hQ
  exact ⟨.on id i, d₁, _, d₃, h₁, .onward rfl (Value.given?_of_isText hid) h₂ hwalk, hΦ⟩

end Completes

namespace Ready

variable {s₀ : Session} {plans plans' : Plans} {P : Session → Prop} {p start finish : Page}
  {before after inner : List Page} {b : Battery} {plan : LoopPlan} {c : Nat} {role : LoopRole}
  {item : LoopItem} {Φ : List Visit → Session → Prop}

/-! ## Steps of a walk -/

/-- A page that no battery owns is visited without an item. -/
theorem completes_arrive_free (h : nav.Ready s₀) (hp : p ∈ nav.pages)
    (hrole : nav.roles.ownerOf? p.id = none) (fuel : Nat)
    (hnext : nav.Completes P (nav.nextPage p.id) fun visits s => Φ ((p.id, none) :: visits) s) :
    nav.Completes P (nav.arriveWithin (fuel + 1) (some p.id)) Φ := by
  refine .bind_known (h.yields_roleOf hp) ?_
  rw [hrole]
  exact .visit (i := none) (h.inOrder.id p hp) (.bind_known (h.yields_iterationOf_free hp hrole) <|
    .pure fun _ hs => ⟨hs, rfl⟩) hnext

/-- A page of a battery behind its start page is visited for the item at the cursor. -/
theorem completes_arrive_owned (h : nav.Ready s₀) (hp : p ∈ nav.pages)
    (hrole : nav.roles.ownerOf? p.id = some (b, role)) (hne : role ≠ .start)
    (hplan : plans b.id = some plan) (hc : plan.CursorAt c) (hitem : plan.items[c]? = some item)
    (fuel : Nat)
    (hnext : nav.Completes (s₀.Planned plans) (nav.nextPage p.id)
      fun visits s => Φ ((p.id, some item) :: visits) s) :
    nav.Completes (s₀.Planned plans) (nav.arriveWithin (fuel + 1) (some p.id)) Φ := by
  obtain ⟨hlt, rfl⟩ := List.getElem?_eq_some_iff.1 hitem
  refine .bind_known (h.yields_roleOf hp) ?_
  rw [hrole]
  refine .visit (i := some ⟨plan.batteryId, plan.items[c], .int c, .int plan.items.length⟩)
    (h.inOrder.id p hp) ?_ hnext
  cases role with
  | start => exact absurd rfl hne
  | interior | finish =>
    exact .bind_known (h.yields_iterationOf hp hrole hplan hc hlt) <| .pure fun _ hs => ⟨hs, rfl⟩

/-- At its start page a battery gets its plan. Without items it is passed over as a whole, and else
the page is visited for the first item. -/
theorem completes_arrive_start (h : nav.Ready s₀) (hp : start ∈ nav.pages)
    (hrole : nav.roles.ownerOf? start.id = some (b, .start)) (hnone : plans b.id = none)
    (hfinish : nav.pages = before ++ finish :: after) (hid : finish.id = b.endPageId) (fuel : Nat)
    (hempty : ∀ plan, b.Fits nav.survey s₀.responses plan → plan.CursorAt 0 → plan.items = [] →
      nav.Completes (s₀.Planned (plans.put b.id plan))
        (nav.arriveWithin fuel (nav.firstOf s₀ after)) Φ)
    (hitems : ∀ plan item rest, b.Fits nav.survey s₀.responses plan → plan.items = item :: rest →
      nav.Completes (s₀.Planned (plans.put b.id (plan.moved 0))) (nav.nextPage start.id)
        fun visits s => Φ ((start.id, some item) :: visits) s) :
    nav.Completes (s₀.Planned plans) (nav.arriveWithin (fuel + 1) (some start.id)) Φ := by
  refine .bind_known (h.yields_roleOf hp) ?_
  rw [hrole]
  refine .bind (h.yields_enter (h.mem_batteries hrole) hnone) fun ⟨plan, wasComplete⟩ => ?_
  refine .given (fun _ hs => hs.1) fun ⟨hfits, hcursor, hwas⟩ => ?_
  dsimp only at hfits hcursor hwas ⊢
  have hc : plan.CursorAt 0 := ⟨hcursor, Nat.zero_le _⟩
  have hcomplete := Yields.ofOk (P := s₀.Planned (plans.put b.id plan)) hc.isComplete
  refine .bind_known (hcomplete.mono (fun _ hs => hs.2) fun _ _ hs => hs) ?_
  rw [hwas]
  cases hplan : plan.items with
  | nil =>
    refine .bind (R := fun _ => s₀.Planned (plans.put b.id plan)) .log fun _ => ?_
    rw [← hid]
    exact .bind_known (h.yields_nextInOrder hfinish) (hempty plan hfits hc hplan)
  | cons item rest =>
    have hlt : 0 < plan.items.length := by simp [hplan]
    have hmoved : plan.moved 0 = plan := hc.eq_moved.symm
    have hnext := hitems plan item rest hfits hplan
    rw [hmoved] at hnext
    refine .visit (Q := s₀.Planned (plans.put b.id plan))
      (i := some ⟨plan.batteryId, plan.items[0], .int (0 : Nat), .int plan.items.length⟩)
      (h.inOrder.id start hp) ?_ ?_
    · exact .bind_known (.ofOk (hc.iteration (by omega) hlt)) <| .pure fun _ hs => ⟨hs, rfl⟩
    · simpa [hplan] using hnext

/-- A page that does not start another iteration is left for the next one that is shown. -/
theorem completes_nextPage (h : nav.Ready s₀) (hsplit : nav.pages = before ++ p :: after)
    (hcontinue : Yields (s₀.Planned plans) (nav.continueLoop p.id)
      fun o s => s₀.Planned plans' s ∧ o = none)
    (hnext : nav.Completes (s₀.Planned plans') (nav.arrive (nav.firstOf s₀ after)) Φ) :
    nav.Completes (s₀.Planned plans) (nav.nextPage p.id) Φ := by
  refine .bind_known (h.yields_around hsplit) <| .bind_known hcontinue ?_
  exact .bind_known (h.yields_nextInOrder hsplit) hnext

/-- The end page of a battery is left for its start page if there is another item. -/
theorem completes_nextPage_loop (h : nav.Ready s₀) (hsplit : nav.pages = before ++ p :: after)
    {id : Id} {i : Option Iteration} (hid : id.isText = true)
    (hcontinue : Yields (s₀.Planned plans) (nav.continueLoop p.id)
      fun o s => s₀.Planned plans' s ∧ o = some (.on id i))
    (hnext : nav.Completes (s₀.Planned plans') (nav.nextPage id)
      fun visits s => Φ ((id, i.map Iteration.item) :: visits) s) :
    nav.Completes (s₀.Planned plans) (nav.nextPage p.id) Φ := by
  refine .bind_known (h.yields_around hsplit) <| .bind_known hcontinue ?_
  exact .visit hid (.pure fun _ hs => ⟨hs, rfl⟩) hnext

/-- Arriving at the first shown page of a list whose first page does not start another iteration:
that page is visited if it is shown, and left for the first shown one of the rest. -/
theorem completes_firstOf_cons (h : nav.Ready s₀) {m : Nat} (hm : m < 2 * (nav.pages.length + 1))
    {rest : List Page} (hsplit : nav.pages = before ++ p :: rest) {i : Option LoopItem}
    (hcontinue : Yields (s₀.Planned plans) (nav.continueLoop p.id)
      fun o s => s₀.Planned plans s ∧ o = none)
    (hland : ∀ fuel, nav.Completes (s₀.Planned plans) (nav.nextPage p.id)
        (fun visits s => Φ ((p.id, i) :: visits) s) →
      nav.Completes (s₀.Planned plans) (nav.arriveWithin (fuel + 1) (some p.id)) Φ)
    (hrest : ∀ fuel, m < fuel → nav.Completes (s₀.Planned plans)
      (nav.arriveWithin fuel (nav.firstOf s₀ rest))
      fun visits s => Φ ((if nav.shows s₀ p then [(p.id, i)] else []) ++ visits) s) :
    ∀ fuel, m < fuel →
      nav.Completes (s₀.Planned plans) (nav.arriveWithin fuel (nav.firstOf s₀ (p :: rest))) Φ := by
  intro fuel hfuel
  rw [firstOf, List.find?_cons]
  cases hshown : nav.shows s₀ p with
  | true =>
    obtain ⟨n, rfl⟩ : ∃ n, fuel = n + 1 := ⟨fuel - 1, by omega⟩
    refine hland n (h.completes_nextPage hsplit hcontinue ?_)
    simpa [hshown, arrive] using hrest _ hm
  | false => simpa [hshown, firstOf] using hrest fuel hfuel

/-- The ends of a battery are always shown. -/
theorem shows_of_boundary {s : Session} (hrole : nav.roles.ownerOf? p.id = some (b, role))
    (hne : role ≠ .interior) : nav.shows s p = true := by
  have hbound : nav.roles.isBoundary p.id = true := by
    rw [RoleTable.isBoundary, hrole]
    cases role with
    | interior => exact absurd rfl hne
    | start | finish => rfl
  simp [shows, hbound]

/-! ## Passes through a block -/

section Block
variable (h : nav.Ready s₀) (hblock : nav.roles.IsBlock b start inner finish)
  (hsplit : nav.pages = before ++ start :: (inner ++ finish :: after))
include h hblock

/-- The rest of a pass, from some page inside the block on. -/
theorem completes_inner (hplan : plans b.id = some plan) (hc : plan.CursorAt c)
    (hitem : plan.items[c]? = some item) :
    ∀ (rest before : List Page), nav.pages = before ++ (rest ++ finish :: after) →
      (∀ p ∈ rest, nav.roles.ownerOf? p.id = some (b, .interior)) →
      ∀ {Φ : List Visit → Session → Prop},
      nav.Completes (s₀.Planned plans) (nav.nextPage finish.id)
        (fun visits s => Φ (nav.pass s₀ (rest ++ [finish]) item ++ visits) s) →
      ∀ fuel, 0 < fuel → nav.Completes (s₀.Planned plans)
        (nav.arriveWithin fuel (nav.firstOf s₀ (rest ++ finish :: after))) Φ
  | [], before, hrest, _, Φ, hnext, fuel, hfuel => by
    obtain ⟨n, rfl⟩ : ∃ n, fuel = n + 1 := ⟨fuel - 1, by omega⟩
    have hshown : nav.shows s₀ finish = true := shows_of_boundary hblock.finish (by simp)
    rw [List.nil_append, firstOf, List.find?_cons_of_pos hshown]
    refine h.completes_arrive_owned (by simp [hrest]) hblock.finish (by simp) hplan hc hitem n ?_
    simpa [pass, hshown] using hnext
  | p :: r, before, hrest, hinner, Φ, hnext, fuel, hfuel => by
    have hp : p ∈ nav.pages := by simp [hrest]
    have hrole := hinner p (.head _)
    refine h.completes_firstOf_cons (m := 0) (i := some item) (by omega) hrest
      (h.yields_continueLoop_of_ne hp fun b' => by simp [hrole])
      (fun n => h.completes_arrive_owned hp hrole (by simp) hplan hc hitem n) ?_ fuel hfuel
    refine completes_inner hplan hc hitem r (before ++ [p]) (by simp [hrest])
      (fun q hq => hinner q (.tail _ hq)) ?_
    simpa only [List.cons_append, pass_cons, List.append_assoc] using hnext

include hsplit

/-- A pass from the start page to the end page. -/
theorem completes_pass (hc : plan.CursorAt c) (hitem : plan.items[c]? = some item)
    (hplan : plans b.id = some plan)
    (hnext : nav.Completes (s₀.Planned plans) (nav.nextPage finish.id) fun visits s =>
      Φ (nav.pass s₀ (start :: (inner ++ [finish])) item ++ visits) s) :
    nav.Completes (s₀.Planned plans) (nav.nextPage start.id)
      fun visits s => Φ ((start.id, some item) :: visits) s := by
  have hshown : nav.shows s₀ start = true := shows_of_boundary hblock.start (by simp)
  refine h.completes_nextPage hsplit (h.yields_continueLoop_of_ne (by simp [hsplit]) fun b' => by
    simp [hblock.start]) ?_
  refine h.completes_inner hblock hplan hc hitem inner (before ++ [start]) (by simp [hsplit])
    hblock.inner ?_ _ (by omega)
  simpa [pass_cons, hshown] using hnext

/-- The passes for the items that are left, from the start page on. -/
theorem completes_passes (hfits : b.Fits nav.survey s₀.responses plan) (rest : List LoopItem)
    (item : LoopItem) (done : List LoopItem) (hitems : plan.items = done ++ item :: rest)
    (hdone : nav.Completes (s₀.Planned (plans.put b.id (plan.moved plan.items.length)))
      (nav.arrive (nav.firstOf s₀ after)) fun visits s =>
        Φ ((item :: rest).flatMap (nav.pass s₀ (start :: (inner ++ [finish]))) ++ visits) s) :
    nav.Completes (s₀.Planned (plans.put b.id (plan.moved done.length))) (nav.nextPage start.id)
      fun visits s => Φ ((start.id, some item) :: visits) s := by
  have hfinish : nav.pages = (before ++ start :: inner) ++ finish :: after := by simp [hsplit]
  have hleave : ∀ {item rest done}, plan.items = done ++ item :: rest →
      Yields (s₀.Planned (plans.put b.id (plan.moved done.length))) (nav.continueLoop finish.id)
        fun o s => s₀.Planned (plans.put b.id (plan.moved (done.length + 1))) s ∧
          o = rest.head?.map fun next => .on start.id
            (some ⟨plan.batteryId, next, .int (done.length + 1 : Nat),
              .int plan.items.length⟩) := by
    intro item rest done hitems
    have hlt : done.length < plan.items.length := by simp [hitems]
    have hcontinue := h.yields_continueLoop (by simp [hsplit]) hblock.finish
      (Plans.put_self plans b.id _) (LoopPlan.cursorAt_moved (Nat.le_of_lt hlt)) hlt
      (hfits.moved (Nat.le_of_lt hlt))
    rw [Plans.put_put, LoopPlan.moved_moved, LoopPlan.moved_items, LoopPlan.moved_batteryId,
      ← hblock.startId] at hcontinue
    have hhead : plan.items[done.length + 1]? = rest.head? := by
      rw [hitems, List.getElem?_append_right (Nat.le_add_right _ 1), Nat.add_sub_cancel_left]
      cases rest <;> rfl
    rwa [hhead] at hcontinue
  induction rest generalizing item done Φ with
  | nil =>
    have hlt : done.length < plan.items.length := by simp [hitems]
    refine h.completes_pass hblock hsplit (LoopPlan.cursorAt_moved (Nat.le_of_lt hlt))
      (by simp [hitems]) (Plans.put_self _ _ _) ?_
    refine h.completes_nextPage hfinish (hleave hitems) ?_
    have hlen : plan.items.length = done.length + 1 := by simp [hitems]
    rw [hlen] at hdone
    simpa using hdone
  | cons next rest ih =>
    have hlt : done.length < plan.items.length := by simp [hitems]
    refine h.completes_pass hblock hsplit (LoopPlan.cursorAt_moved (Nat.le_of_lt hlt))
      (by simp [hitems]) (Plans.put_self _ _ _) ?_
    refine h.completes_nextPage_loop hfinish (h.inOrder.id start (by simp [hsplit]))
      (hleave hitems) ?_
    have hnext := @ih
      (fun visits s => Φ (nav.pass s₀ (start :: (inner ++ [finish])) item ++ visits) s)
      next (done ++ [item]) (by simp [hitems])
      (by simpa only [List.flatMap_cons, List.append_assoc] using hdone)
    rwa [List.length_append] at hnext

/-- A block that is reached before its battery has a plan: it is walked through once per item of the
plan that the battery is given, and then the pages behind are reached. -/
theorem completes_block {m : Nat} (hm : m < 2 * (nav.pages.length + 1)) (hnone : plans b.id = none)
    (hafter : ∀ plan, b.Fits nav.survey s₀.responses plan → plan.CursorAt plan.items.length →
      ∀ fuel, m < fuel → nav.Completes (s₀.Planned (plans.put b.id plan))
        (nav.arriveWithin fuel (nav.firstOf s₀ after)) fun visits s =>
          Φ (plan.items.flatMap (nav.pass s₀ (start :: (inner ++ [finish]))) ++ visits) s) :
    ∀ fuel, m + 1 < fuel → nav.Completes (s₀.Planned plans)
      (nav.arriveWithin fuel (nav.firstOf s₀ (start :: (inner ++ finish :: after)))) Φ := by
  intro fuel hfuel
  obtain ⟨n, rfl⟩ : ∃ n, fuel = n + 1 := ⟨fuel - 1, by omega⟩
  have hshown : nav.shows s₀ start = true := shows_of_boundary hblock.start (by simp)
  have hfinish : nav.pages = (before ++ start :: inner) ++ finish :: after := by simp [hsplit]
  rw [firstOf, List.find?_cons_of_pos hshown]
  refine h.completes_arrive_start (by simp [hsplit]) hblock.start hnone hfinish hblock.finishId n
    (fun plan hfits hc hempty => ?_) fun plan item rest hfits hitems => ?_
  · have hcompletes := fun hdone => hafter plan hfits hdone n (Nat.lt_of_succ_lt_succ hfuel)
    rw [hempty] at hcompletes
    exact hcompletes hc
  · refine h.completes_passes hblock hsplit hfits rest item [] hitems ?_
    rw [← hitems]
    exact hafter _ (hfits.moved (Nat.le_refl _)) (LoopPlan.cursorAt_moved (Nat.le_refl _)) _ hm

end Block

/-! ## Segments one after the other -/

/-- The session after the walk through some segments: their batteries have plans that fit, with the
cursors behind the last items, and all else is as before. -/
structure Walked (nav : Navigator) (s₀ : Session) (segs : List Segment) (plans : Plans)
    (s : Session) : Prop where
  responses : s.responses = s₀.responses
  embedded : s.embedded = s₀.embedded
  kept : ∀ id, (∀ seg ∈ segs, ∀ b ∈ seg.battery?, id.agrees b.id = false) → s.plan? id = plans id
  made : ∀ seg ∈ segs, ∀ b ∈ seg.battery?,
    ∃ p, s.plan? b.id = some p ∧ b.Fits nav.survey s₀.responses p
  done : ∀ seg ∈ segs, ∀ b ∈ seg.battery?, ∀ p, s.plan? b.id = some p → p.CursorAt p.items.length

theorem Walked.single {segs : List Segment} {s : Session} (hwalked : Walked nav s₀ segs plans s) :
    Walked nav s₀ (.single p :: segs) plans s where
  responses := hwalked.responses
  embedded := hwalked.embedded
  kept id hid := hwalked.kept id fun seg hseg => hid seg (.tail _ hseg)
  made seg hseg b hb := by
    rcases List.mem_cons.1 hseg with rfl | hseg
    · cases hb
    · exact hwalked.made seg hseg b hb
  done seg hseg b hb := by
    rcases List.mem_cons.1 hseg with rfl | hseg
    · cases hb
    · exact hwalked.done seg hseg b hb

/-- The block of a battery is walked through with the plan that the battery is left with. -/
theorem Walked.block {segs : List Segment} {s : Session}
    (hwalked : Walked nav s₀ segs (plans.put b.id plan) s)
    (hfits : b.Fits nav.survey s₀.responses plan) (hdone : plan.CursorAt plan.items.length)
    (hapart : ∀ seg ∈ segs, ∀ c ∈ seg.battery?, b.id.agrees c.id = false) :
    s.itemsOf b = plan.items ∧ Walked nav s₀ (.block b start inner finish :: segs) plans s := by
  have hplan : s.plan? b.id = some plan := by rw [hwalked.kept b.id hapart, Plans.put_self]
  refine ⟨by rw [Session.itemsOf, hplan]; rfl, hwalked.responses, hwalked.embedded, ?_, ?_, ?_⟩
  · intro id hid
    rw [hwalked.kept id fun seg hseg => hid seg (.tail _ hseg)]
    exact Plans.put_of_agrees_eq_false (hid _ (.head _) b rfl) plan
  · intro seg hseg c hc
    rcases List.mem_cons.1 hseg with rfl | hseg
    · obtain rfl : b = c := Option.some.inj hc
      exact ⟨plan, hplan, hfits⟩
    · exact hwalked.made seg hseg c hc
  · intro seg hseg c hc p hp
    rcases List.mem_cons.1 hseg with rfl | hseg
    · obtain rfl : b = c := Option.some.inj hc
      cases hplan.symm.trans hp
      exact hdone
    · exact hwalked.done seg hseg c hc p hp

/-- Batteries that differ have ids that do not agree. -/
theorem agrees_eq_false (h : nav.Ready s₀) {c : Battery} (hb : b ∈ nav.survey.batteries)
    (hc : c ∈ nav.survey.batteries) (hne : b ≠ c) : b.id.agrees c.id = false :=
  h.typed.agrees_eq_false h.distinct hb hc hne

/-- The walk through the rest of the segments. -/
theorem completes_segments (h : nav.Ready s₀) :
    ∀ (segs : List Segment) (before : List Page) (plans : Plans),
      nav.pages = before ++ segs.flatMap Segment.pages →
      (∀ seg ∈ segs, seg.Proper nav.survey nav.roles) →
      (segs.Pairwise fun x y => ∀ b ∈ x.battery?, ∀ c ∈ y.battery?, b ≠ c) →
      (∀ seg ∈ segs, ∀ b ∈ seg.battery?, plans b.id = none) → ∀ fuel, segs.length < fuel →
      nav.Completes (s₀.Planned plans)
        (nav.arriveWithin fuel (nav.firstOf s₀ (segs.flatMap Segment.pages)))
        fun visits s => visits = segs.flatMap (nav.visitsIn s₀ s) ∧ Walked nav s₀ segs plans s
  | [], _, plans, _, _, _, _, fuel, _ => by
    refine arriveWithin_none fuel ▸ .finished fun s hs => ⟨rfl, hs.responses, hs.embedded, ?_, ?_, ?_⟩
    · exact fun id _ => hs.plan? id
    · exact fun _ hseg => nomatch hseg
    · exact fun _ hseg => nomatch hseg
  | seg :: segs, before, plans, hsplit, hproper, hapart, hnone, fuel, hfuel => by
    have hlen : segs.length < 2 * (nav.pages.length + 1) := by
      have := Segment.length_le_flatMap segs
      rw [hsplit, List.flatMap_cons]
      simp only [List.length_append]
      omega
    rw [List.pairwise_cons] at hapart
    have hrest (plans : Plans) := completes_segments h segs (before ++ seg.pages) plans
      (by rw [hsplit, List.flatMap_cons, List.append_assoc]) (fun x hx => hproper x (.tail _ hx))
      hapart.2
    cases seg with
    | single p =>
      have hp : p ∈ nav.pages := by simp [hsplit, Segment.pages]
      have hrole : nav.roles.ownerOf? p.id = none := hproper _ (.head _)
      refine h.completes_firstOf_cons (i := none) hlen hsplit
        (h.yields_continueLoop_of_ne hp fun b => by simp [hrole])
        (fun n => h.completes_arrive_free hp hrole n) (fun n hn => ?_) fuel
        (Nat.lt_of_succ_lt hfuel)
      refine (hrest plans (fun x hx => hnone x (.tail _ hx)) n hn).mono ?_
      rintro visits s ⟨rfl, hwalked⟩
      exact ⟨rfl, hwalked.single⟩
    | block b start inner finish =>
      obtain ⟨hb, hblock⟩ := hproper _ (.head _)
      have hother : ∀ seg ∈ segs, ∀ c ∈ seg.battery?, b.id.agrees c.id = false := fun x hx c hc =>
        h.agrees_eq_false hb ((hproper x (.tail _ hx)).mem_batteries hc) (hapart.1 x hx b rfl c hc)
      have hpages : (Segment.block b start inner finish :: segs).flatMap Segment.pages =
          start :: (inner ++ finish :: segs.flatMap Segment.pages) := by simp [Segment.pages]
      rw [hpages] at hsplit ⊢
      refine h.completes_block hblock hsplit hlen (hnone _ (.head _) b rfl)
        (fun plan hfits hdone n hn => ?_) fuel hfuel
      refine (hrest (plans.put b.id plan) (fun x hx c hc => ?_) n hn).mono ?_
      · rw [Plans.put_of_agrees_eq_false ((Value.agrees_comm _ _).trans (hother x hx c hc))]
        exact hnone x (.tail _ hx) c hc
      · rintro visits s ⟨rfl, hwalked⟩
        obtain ⟨hitems, hblocks⟩ : s.itemsOf b = plan.items ∧
            Walked nav s₀ (.block b start inner finish :: segs) plans s :=
          hwalked.block hfits hdone hother
        exact ⟨by rw [List.flatMap_cons, visitsIn, hitems], hblocks⟩

/-- The first page that is shown is reached first. -/
theorem completes_firstPage (h : nav.Ready s₀)
    (harrive : nav.Completes (s₀.Planned plans) (nav.arrive (nav.firstOf s₀ nav.pages)) Φ) :
    nav.Completes (s₀.Planned plans) nav.firstPage Φ := by
  unfold firstPage
  split
  · next hpages =>
    rw [hpages] at harrive
    exact harrive
  · next p r hpages =>
    refine .bind_known (h.yields_isShown (by simp [hpages])) ?_
    rw [hpages, firstOf, List.find?_cons] at harrive
    cases hshown : nav.shows s₀ p with
    | true =>
      rw [hshown] at harrive
      rw [if_pos rfl, h.inOrder.given?_id (by simp [hpages])]
      exact harrive
    | false =>
      rw [hshown] at harrive
      have hnext : Yields (s₀.Planned plans) (nav.nextInOrder p.id) _ :=
        h.yields_nextInOrder (show nav.pages = [] ++ p :: r from hpages)
      exact .bind_known hnext harrive

end Ready

/-! ## Walking is unrolling -/

theorem shows_congr {s t : Session} (hresponses : s.responses = t.responses)
    (hembedded : s.embedded = t.embedded) : nav.shows s = nav.shows t := by
  funext p
  simp only [shows, verdict, Session.context, hresponses, hembedded]

theorem visitsIn_congr {s t : Session} (h : nav.shows s = nav.shows t) (u : Session) :
    nav.visitsIn s u = nav.visitsIn t u := by
  have hpass : nav.pass s = nav.pass t := by
    funext l item
    rw [pass, pass, h]
  funext seg
  cases seg with
  | single p => rw [visitsIn, visitsIn, h]
  | block b start inner finish => rw [visitsIn, visitsIn, hpass]

section Unrolling
variable {segs : List Segment} {survey : Survey}
  (hpages : nav.pages = segs.flatMap Segment.pages)
  (hproper : ∀ seg ∈ segs, seg.Proper survey nav.roles)
  (hapart : segs.Pairwise fun x y => ∀ b ∈ x.battery?, ∀ c ∈ y.battery?, b ≠ c)
include hpages hproper hapart

/-- The pages of a battery are those of its block. -/
theorem blockOf_eq {b : Battery} {start finish : Page} {inner : List Page}
    (hmem : Segment.block b start inner finish ∈ segs) :
    nav.blockOf b = start :: (inner ++ [finish]) := by
  have hfilter : ∀ seg ∈ segs, (seg.pages.filter fun p => (nav.roles.ownerOf? p.id).any fun owner =>
      decide (owner.1 = b)) = if seg.battery? = some b then seg.pages else [] := by
    intro seg hseg
    have howned : ∀ p ∈ seg.pages, ((nav.roles.ownerOf? p.id).any fun owner =>
        decide (owner.1 = b)) = decide (seg.battery? = some b) := by
      intro p hp
      rw [← (hproper seg hseg).owner hp]
      cases nav.roles.ownerOf? p.id <;> simp
    rw [List.filter_congr howned]
    split <;> simp [*]
  rw [blockOf, hpages, List.filter_flatMap]
  clear hpages hproper
  induction segs with
  | nil => cases hmem
  | cons seg segs ih =>
    rw [List.pairwise_cons] at hapart
    rw [List.flatMap_cons, hfilter seg (.head _)]
    rcases List.mem_cons.1 hmem with rfl | hmem
    · have hnil : (segs.flatMap fun seg => seg.pages.filter fun p =>
          (nav.roles.ownerOf? p.id).any fun owner => decide (owner.1 = b)) = [] := by
        refine List.flatMap_eq_nil_iff.2 fun x hx => ?_
        rw [hfilter x (.tail _ hx)]
        exact if_neg fun hb => hapart.1 x hx b rfl b hb rfl
      rw [hnil, List.append_nil]
      exact if_pos rfl
    · have hb : seg.battery? ≠ some b := fun hb => hapart.1 _ hmem b hb b rfl rfl
      rw [if_neg hb, List.nil_append]
      exact ih hapart.2 hmem fun x hx => hfilter x (.tail _ hx)

/-- The unrolling goes segment by segment. -/
theorem unrolling_eq (s : Session) : nav.unrolling s = segs.flatMap (nav.visitsIn s s) := by
  have hseg : ∀ seg ∈ segs, seg.pages.flatMap (nav.visitsAt s) = nav.visitsIn s s seg := by
    intro seg hseg
    have hprop := hproper seg hseg
    cases seg with
    | single p =>
      have hrole : nav.roles.ownerOf? p.id = none := hprop
      simp [Segment.pages, visitsAt, visitsIn, hrole]
    | block b start inner finish =>
      have hstart : nav.visitsAt s start = nav.visitsIn s s (.block b start inner finish) := by
        rw [visitsAt, hprop.2.start, visitsIn, ← blockOf_eq hpages hproper hapart hseg]
      have hinner : inner.flatMap (nav.visitsAt s) = [] := by
        refine List.flatMap_eq_nil_iff.2 fun p hp => ?_
        rw [visitsAt, hprop.2.inner p hp]
      have hfinish : nav.visitsAt s finish = [] := by rw [visitsAt, hprop.2.finish]
      simp [Segment.pages, List.flatMap_append, hstart, hinner, hfinish]
  rw [unrolling, hpages, List.flatMap_assoc]
  exact List.flatMap_congr hseg

end Unrolling

/-- Walking forward is unrolling. Take a survey whose parts have the declared types, and whose page
ids, page indexes and battery ids are distinct, and a session without plans for which there is a
verdict on every page that may be hidden. Then there is one walk forward from the first page on, and
it ends. Its visits are the pages in order, with the block of every accepted battery once per item
of the plan that the battery is left with. That plan fits the answers, and has no items exactly if
there are no source items; answers and embedded data stay as they are. -/
theorem forwardWalk_unrolling {survey : Survey} (htyped : survey.Typed)
    (hdistinct : survey.Distinct) (skipHidden quiet : Bool) {d : Desk}
    (hnew : ∀ id, d.session.plan? id = none)
    (hverdict : skipHidden = true → ∀ p ∈ survey.pages,
      ∃ shown, (ofSurvey survey skipHidden quiet).verdict d.session p = .ok shown) :
    let nav := ofSurvey survey skipHidden quiet
    ∃ visits d', nav.ForwardWalk d visits d' ∧ visits = nav.unrolling d'.session ∧
      (∀ visits' d'', nav.ForwardWalk d visits' d'' → visits' = visits ∧ d'' = d') ∧
      (d'.session.responses = d.session.responses ∧ d'.session.embedded = d.session.embedded) ∧
      ∀ st ∈ nav.roles.stretches, ∃ p, d'.session.plan? st.battery.id = some p ∧
        st.battery.Fits survey d.session.responses p ∧
        (p.items = [] ↔ Planning.sourceItems st.battery survey d.session.responses = []) := by
  intro nav
  have hready : nav.Ready d.session := .ofSurvey htyped hdistinct hverdict
  obtain ⟨segs, hpages, hproper, hapart⟩ := survey.exists_segments htyped hdistinct
  have hpages : nav.pages = segs.flatMap Segment.pages := hpages
  have hcompletes := hready.completes_segments segs [] (fun _ => none) hpages hproper hapart
    (fun _ _ _ _ => rfl) (2 * (nav.pages.length + 1)) (by
      have := Segment.length_le_flatMap segs
      rw [← hpages] at this
      omega)
  rw [← hpages] at hcompletes
  obtain ⟨l, d₁, visits, d', hfirst, hwalk, rfl, hwalked⟩ :=
    hready.completes_firstPage hcompletes d ⟨rfl, rfl, hnew⟩
  have hforward : nav.ForwardWalk d _ d' := ⟨l, d₁, hfirst, hwalk⟩
  refine ⟨_, d', hforward, ?_, fun visits' d'' h => h.unique hforward,
    ⟨hwalked.responses, hwalked.embedded⟩, fun st hst => ?_⟩
  · rw [unrolling_eq hpages hproper hapart,
      visitsIn_congr (shows_congr hwalked.responses.symm hwalked.embedded.symm)]
  · obtain ⟨start, finish, hends⟩ := htyped.exists_ends hready.inOrder hst
    have hmem : start ∈ nav.pages := hends.start_mem
    rw [hpages] at hmem
    obtain ⟨seg, hseg, hstart⟩ := List.mem_flatMap.1 hmem
    have howner := (hproper seg hseg).owner hstart
    rw [RoleTable.ownerOf?_of_mem (RoleTable.pairwise_ofSurvey survey) hst
      ((hends.mem_iff start hends.start_mem).2 ⟨Int.le_refl _, Int.le_of_lt hends.lt⟩)] at howner
    obtain ⟨p, hp, hfits⟩ := hwalked.made seg hseg st.battery howner.symm
    exact ⟨p, hp, hfits, hfits.items_eq_nil_iff⟩

end Navigator

/-! ## A walk through the brand tracker -/

namespace Sample.BrandTracker

theorem typed : (survey (.int 2)).Typed where
  pageId := by decide
  pageIndex p hp :=
    have hindex : ∀ p ∈ pages, p.index = .int p.rank := by decide
    ⟨_, hindex p hp⟩
  questionId := by decide
  choiceValue := by decide
  batteryId := by decide
  maxItems b hb :=
    have hmax : ∀ b ∈ (survey (.int 2)).batteries,
        b.maxItems = .null ∨ b.maxItems = .int b.maxItems.wholePart := by decide
    (hmax b hb).imp_right fun h => ⟨_, h⟩
  rowKey := by decide
  rowIndex b hb r hr :=
    have hindex : ∀ b ∈ (survey (.int 2)).batteries, ∀ r ∈ b.rows,
        r.sortIndex = .int r.sortIndex.wholePart := by decide
    ⟨_, hindex b hb r hr⟩

theorem distinct : (survey (.int 2)).Distinct := ⟨by decide, by decide, by decide⟩

/-- A respondent who has heard of two brands. -/
def aware : Session :=
  (Session.new (.text "demo") (.text "brand_tracker") ∅).respond (.text "q_aware")
    (.list [.text "nike", .text "puma"])

theorem pagesInOrder : (survey (.int 2)).pagesInOrder = pages := by
  refine sortedBy_of_pairwise (by decide) ?_
  simp [pages, survey, plainPage, Value.place_int_le_iff]

theorem batteryPages_brands : (survey (.int 2)).batteryPages? brands =
    some [.text "p_brand_rate", .text "p_brand_buy"] := by
  simp only [Survey.batteryPages?, Survey.pagesBetween, pagesInOrder]
  decide +kernel

theorem batteryPages_stores : (survey (.int 2)).batteryPages? (stores (.int 2)) =
    some [.text "p_store_visit", .text "p_store_rate"] := by
  simp only [Survey.batteryPages?, Survey.pagesBetween, pagesInOrder]
  decide +kernel

/-- The navigator of the survey, with its pages in order and its batteries accepted. -/
def navigator : Navigator where
  survey := survey (.int 2)
  pages := pages
  roles := ⟨[⟨brands, [.text "p_brand_rate", .text "p_brand_buy"]⟩,
    ⟨stores (.int 2), [.text "p_store_visit", .text "p_store_rate"]⟩]⟩
  skipHidden := true
  quiet := false

theorem ofSurvey_survey : Navigator.ofSurvey (survey (.int 2)) true false = navigator := by
  have hbatteries : (survey (.int 2)).batteries = [brands, stores (.int 2)] := rfl
  rw [Navigator.ofSurvey, pagesInOrder]
  simp only [RoleTable.ofSurvey, hbatteries, RoleTable.addAll, RoleTable.add, RoleTable.verdict,
    batteryPages_brands, batteryPages_stores]
  rfl

end Sample.BrandTracker

open Sample BrandTracker in
/-- Two batteries next to each other, one over the brands that the respondent has heard of and one
over two of the stores, and a page that is hidden from the respondent. -/
theorem Navigator.forwardWalk_unrolling_brandTracker :
    let nav := ofSurvey (BrandTracker.survey (.int 2)) true false
    ∃ visits d', nav.ForwardWalk ⟨aware, .ofScript [0], []⟩ visits d' ∧
      visits = nav.unrolling d'.session ∧
      (∀ visits' d'', nav.ForwardWalk ⟨aware, .ofScript [0], []⟩ visits' d'' →
        visits' = visits ∧ d'' = d') ∧
      (d'.session.responses = aware.responses ∧ d'.session.embedded = aware.embedded) ∧
      ∀ st ∈ nav.roles.stretches, ∃ p, d'.session.plan? st.battery.id = some p ∧
        st.battery.Fits (BrandTracker.survey (.int 2)) aware.responses p ∧
        (p.items = [] ↔
          Planning.sourceItems st.battery (BrandTracker.survey (.int 2)) aware.responses = []) := by
  have hnew : ∀ id, aware.plan? id = none := Register.get?_empty
  have hjudged : ∀ p ∈ (BrandTracker.survey (.int 2)).pages,
      ((ofSurvey (BrandTracker.survey (.int 2)) true false).verdict aware p).isOk = true := by
    decide +kernel
  refine forwardWalk_unrolling typed distinct true false (d := ⟨aware, .ofScript [0], []⟩) hnew
    fun _ p hp => ?_
  have hok := hjudged p hp
  cases hverdict : (ofSurvey (BrandTracker.survey (.int 2)) true false).verdict aware p with
  | ok shown => exact ⟨shown, rfl⟩
  | error e => rw [hverdict] at hok; cases hok

end Questionnaire
