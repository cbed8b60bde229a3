import Questionnaire.Proofs.Route.Walk

/-!
# Walking back

A respondent who has walked forward to the end can leave the last page backward, and then every page
that this leads to, until there is no page before (`Navigator.WalkBack`). `walkBack_reverses` says
that this visits the pages of the forward walk in reverse order, each for the same item.

At the end of a forward walk every plan has its cursor behind its last item, and shows the last
item. Stepping back from a start page leads to the item before the one that is shown. So within a
block the proof goes over the items before the shown one (`Ready.returns_passes`), and within a pass
over the pages inside the block, from the last one to the first (`Ready.returns_inner`). Over the
whole survey it goes over the segments, again from the last one to the first
(`Ready.meets_segments`). Moving backward makes no plans, so the visits are known beforehand.
-/

namespace Questionnaire

open Flow

/-- The battery of a segment, if it has one, has a plan whose cursor is behind the last item, and a
session has the items of that plan. -/
def Segment.Done (s : Session) (plans : Plans) (seg : Segment) : Prop :=
  ∀ b ∈ seg.battery?, ∃ plan, plans b.id = some plan ∧ plan.CursorAt plan.items.length ∧
    s.itemsOf b = plan.items

/-- No battery owns a page before all their start pages. -/
theorem Survey.Typed.ownerOf?_eq_none {survey : Survey} (h : survey.Typed)
    (hdistinct : survey.Distinct) {p : Page} (hp : p ∈ survey.pages)
    (hbefore : ∀ b ∈ survey.batteries, ∀ q ∈ survey.pages, q.id = b.startPageId → p.rank < q.rank) :
    (RoleTable.ofSurvey survey).1.ownerOf? p.id = none := by
  have hperm : survey.pagesInOrder.Perm survey.pages := sortedBy_perm _ _
  cases ho : (RoleTable.ofSurvey survey).1.ownerOf? p.id with
  | none => rfl
  | some owner =>
    obtain ⟨b, role⟩ := owner
    obtain ⟨st, hst, -, hin, -⟩ := RoleTable.exists_of_ownerOf? ho
    obtain ⟨start, finish, hends⟩ :=
      h.exists_ends (survey.inOrder h hdistinct.pageIds hdistinct.pageIndexes) hst
    have hle := ((hends.mem_iff p (hperm.mem_iff.2 hp)).1 hin).1
    have hlt := hbefore st.battery (RoleTable.mem_batteries_of_mem_stretches hst).1 start
      (hperm.mem_iff.1 hends.start_mem) hends.startId
    omega

namespace Navigator

/-! ## Walks backward -/

variable {nav : Navigator}

/-- The visits from a landing on, if every page is left backward until there is none before. -/
inductive WalkBack (nav : Navigator) : Landing → Desk → List Visit → Desk → Prop
  | ended {l : Landing} {d : Desk} : l.pageId = none → WalkBack nav l d [] d
  | onward {l l' : Landing} {d d' d'' : Desk} {id : Id} {visits : List Visit} :
      l.pageId = some id → (nav.previousPage id).perform d = (.ok l', d') →
      WalkBack nav l' d' visits d'' →
      WalkBack nav l d ((id, l.iteration.map Iteration.item) :: visits) d''

theorem WalkBack.unique {l : Landing} {d d₁ d₂ : Desk} {visits visits' : List Visit}
    (h : nav.WalkBack l d visits d₁) (h' : nav.WalkBack l d visits' d₂) :
    visits = visits' ∧ d₁ = d₂ := by
  induction h generalizing visits' with
  | ended hnone =>
    cases h' with
    | ended => exact ⟨rfl, rfl⟩
    | onward hid => rw [hnone] at hid; cases hid
  | onward hid hprevious _ ih =>
    cases h' with
    | ended hnone => rw [hid] at hnone; cases hnone
    | onward hid' hprevious' hwalk =>
      rw [hid, Option.some.injEq] at hid'
      subst hid'
      rw [hprevious, Prod.mk.injEq, Except.ok.injEq] at hprevious'
      obtain ⟨rfl, rfl⟩ := hprevious'
      obtain ⟨rfl, rfl⟩ := ih hwalk
      exact ⟨rfl, rfl⟩

/-- Work that leads to a landing from which a walk backward makes the given visits. -/
def Returns (nav : Navigator) (P : Session → Prop) (f : Flow Landing) (visits : List Visit) :
    Prop :=
  ∀ d, P d.session → ∃ l d₁ d₂, f.perform d = (.ok l, d₁) ∧ nav.WalkBack l d₁ visits d₂

/-- Work that leads to the first of the given visits and changes nothing that matters, and a page
that is left backward for the others. -/
def Meets (nav : Navigator) (P : Session → Prop) (f : Flow Landing) : List Visit → Prop
  | [] => Yields P f fun l _ => l.pageId = none
  | v :: visits =>
    (∃ i, i.map Iteration.item = v.2 ∧ Yields P f fun l s =>
      P s ∧ l.pageId = some v.1 ∧ l.iteration = i) ∧ nav.Returns P (nav.previousPage v.1) visits

namespace Returns

variable {P P' : Session → Prop} {f : Flow Landing} {visits : List Visit} {α : Type} {g : Flow α}
  {k : α → Flow Landing}

theorem mono (h : nav.Returns P f visits) (hP : ∀ s, P' s → P s) : nav.Returns P' f visits :=
  fun d hd => h d (hP _ hd)

theorem bind_known {v : α} (hg : Yields P g fun a s => P' s ∧ a = v)
    (hk : nav.Returns P' (k v) visits) : nav.Returns P (g >>= k) visits := by
  intro d hP
  obtain ⟨a, d₁, h₁, hP', rfl⟩ := hg d hP
  obtain ⟨l, d₂, d₃, h₂, hwalk⟩ := hk d₁ hP'
  exact ⟨l, d₂, d₃, by rw [perform_bind, h₁]; exact h₂, hwalk⟩

/-- A landing on a page that is left backward. -/
theorem visit {id : Id} {i : Option Iteration} (hid : id.isText = true)
    (hf : Yields P f fun l s => P' s ∧ l = .on id i)
    (hprevious : nav.Returns P' (nav.previousPage id) visits) :
    nav.Returns P f ((id, i.map Iteration.item) :: visits) := by
  intro d hP
  obtain ⟨l, d₁, h₁, hP', rfl⟩ := hf d hP
  obtain ⟨l', d₂, d₃, h₂, hwalk⟩ := hprevious d₁ hP'
  exact ⟨.on id i, d₁, d₃, h₁, .onward (Value.given?_of_isText hid) h₂ hwalk⟩

end Returns

namespace Meets

variable {P : Session → Prop} {f : Flow Landing} {visits : List Visit} {α : Type} {g : Flow α}
  {k : α → Flow Landing}

theorem returns (h : nav.Meets P f visits) : nav.Returns P f visits := by
  intro d hP
  cases visits with
  | nil =>
    obtain ⟨l, d₁, h₁, hl⟩ := h d hP
    exact ⟨l, d₁, d₁, h₁, .ended hl⟩
  | cons v visits =>
    obtain ⟨⟨i, hitem, hf⟩, hprevious⟩ := h
    obtain ⟨l, d₁, h₁, hP', hpage, hiteration⟩ := hf d hP
    obtain ⟨l', d₂, d₃, h₂, hwalk⟩ := hprevious d₁ hP'
    have hv : v = (v.1, l.iteration.map Iteration.item) := by rw [hiteration, hitem]
    rw [hv]
    exact ⟨l, d₁, d₃, h₁, .onward hpage h₂ hwalk⟩

theorem bind_known {v : α} (hg : Yields P g fun a s => P s ∧ a = v)
    (hk : nav.Meets P (k v) visits) : nav.Meets P (g >>= k) visits := by
  cases visits with
  | nil =>
    have hk : Yields P (k v) fun l _ => l.pageId = none := hk
    exact .bind_known hg hk
  | cons w visits =>
    obtain ⟨⟨i, hitem, hf⟩, hprevious⟩ := hk
    exact ⟨⟨i, hitem, Yields.bind_known hg hf⟩, hprevious⟩

/-- There is no page before. -/
theorem nowhere : nav.Meets P (pure .nowhere) [] := fun d _ => ⟨.nowhere, d, rfl, rfl⟩

theorem visit {id : Id} {i : Option Iteration} (hid : id.isText = true)
    (hf : Yields P f fun l s => P s ∧ l = .on id i)
    (hprevious : nav.Returns P (nav.previousPage id) visits) :
    nav.Meets P f ((id, i.map Iteration.item) :: visits) := by
  refine ⟨⟨i, rfl, hf.mono (fun _ hs => hs) ?_⟩, hprevious⟩
  rintro l s ⟨hs, rfl⟩
  exact ⟨hs, Value.given?_of_isText hid, rfl⟩

end Meets

namespace Ready

variable {s₀ : Session} {plans plans' : Plans} {P : Session → Prop} {p start finish : Page}
  {before after inner : List Page} {b : Battery} {plan : LoopPlan} {c k : Nat} {role : LoopRole}
  {item : LoopItem} {visits : List Visit}

/-! ## Steps backward -/

/-- The previous page is the last one before that is shown. -/
theorem yields_previousInOrder (h : nav.Ready s₀) (hsplit : nav.pages = before ++ p :: after) :
    Yields (s₀.Planned plans) (nav.previousInOrder p.id)
      fun o s => s₀.Planned plans s ∧ o = nav.firstOf s₀ before.reverse :=
  .bind_known (h.yields_around hsplit) <| h.yields_firstShown before.reverse fun q hq => by
    simp [hsplit, List.mem_reverse.1 hq]

/-- Only the start page of a battery steps back to another iteration. -/
theorem yields_stepBack_of_ne (h : nav.Ready s₀) (hp : p ∈ nav.pages)
    (hrole : ∀ b, nav.roles.ownerOf? p.id ≠ some (b, .start)) :
    Yields P (nav.stepBack p.id) fun o s => P s ∧ o = none := by
  refine .bind_known (h.yields_roleOf hp) ?_
  split
  · next b ho => exact absurd ho (hrole b)
  · exact .pure fun _ hs => ⟨hs, rfl⟩

/-- At the first item the start page of a battery does not step back. -/
theorem yields_stepBack_first (h : nav.Ready s₀) (hp : p ∈ nav.pages)
    (hrole : nav.roles.ownerOf? p.id = some (b, .start)) (hplan : plans b.id = some plan)
    (hc : plan.CursorAt c) (hshown : min c (plan.items.length - 1) = 0) :
    Yields (s₀.Planned plans) (nav.stepBack p.id) fun o s => s₀.Planned plans s ∧ o = none := by
  refine .of_gives (fun s hs => h.gives_stepBack_first hp hrole fun q hq => ?_)
    fun _ hs => ⟨hs, rfl⟩
  cases hplan.symm.trans ((hs.plan? b.id).symm.trans hq)
  rw [hc.rewind, if_pos hshown]

/-- Behind the first item the start page of a battery steps back to the end page, with the cursor on
the item before the one that is shown. -/
theorem yields_stepBack (h : nav.Ready s₀) (hp : p ∈ nav.pages)
    (hrole : nav.roles.ownerOf? p.id = some (b, .start)) (hplan : plans b.id = some plan)
    (hc : plan.CursorAt c) (hshown : min c (plan.items.length - 1) = k + 1)
    (hitem : plan.items[k]? = some item) :
    Yields (s₀.Planned plans) (nav.stepBack p.id) fun o s =>
      s₀.Planned (plans.put b.id (plan.moved k)) s ∧ o = some (.on b.endPageId
        (some ⟨plan.batteryId, item, .int k, .int plan.items.length⟩)) := by
  obtain ⟨hlt, rfl⟩ := List.getElem?_eq_some_iff.1 hitem
  have hmoved : (plan.moved k).CursorAt k := LoopPlan.cursorAt_moved (Nat.le_of_lt hlt)
  have hiteration := hmoved.iteration (n := k) (by rw [LoopPlan.moved_items]; omega) hlt
  have hrewind : plan.rewind = .ok (some (plan.moved k)) := by
    rw [hc.rewind, if_neg (by omega), hshown, Nat.add_sub_cancel]
  exact .of_gives
    (fun s hs => h.gives_stepBack hp hrole ((hs.plan? b.id).trans hplan) hrewind hiteration)
    fun _ hs => ⟨hs.setPlan _ _, rfl⟩

/-- A page that does not step back to another iteration is left for the previous one that is
shown. -/
theorem returns_previousPage (h : nav.Ready s₀) (hsplit : nav.pages = before ++ p :: after)
    (hstep : Yields (s₀.Planned plans) (nav.stepBack p.id)
      fun o s => s₀.Planned plans s ∧ o = none)
    (hback : nav.Returns (s₀.Planned plans) (nav.arriveBack (nav.firstOf s₀ before.reverse))
      visits) : nav.Returns (s₀.Planned plans) (nav.previousPage p.id) visits := by
  refine .bind_known (h.yields_around hsplit) <| .bind_known hstep ?_
  exact .bind_known (h.yields_previousInOrder hsplit) hback

/-- The start page of a battery is left for the end page if the battery steps back. -/
theorem returns_previousPage_loop (h : nav.Ready s₀) (hsplit : nav.pages = before ++ p :: after)
    {id : Id} {i : Option Iteration} (hid : id.isText = true)
    (hstep : Yields (s₀.Planned plans) (nav.stepBack p.id)
      fun o s => s₀.Planned plans' s ∧ o = some (.on id i))
    (hprevious : nav.Returns (s₀.Planned plans') (nav.previousPage id) visits) :
    nav.Returns (s₀.Planned plans) (nav.previousPage p.id)
      ((id, i.map Iteration.item) :: visits) := by
  refine .bind_known (h.yields_around hsplit) <| .bind_known hstep ?_
  exact .visit hid (.pure fun _ hs => ⟨hs, rfl⟩) hprevious

/-- A page that no battery owns is arrived at without an item. -/
theorem meets_arriveBack_free (h : nav.Ready s₀) (hp : p ∈ nav.pages)
    (hrole : nav.roles.ownerOf? p.id = none) (fuel : Nat)
    (hprevious : nav.Returns (s₀.Planned plans) (nav.previousPage p.id) visits) :
    nav.Meets (s₀.Planned plans) (nav.arriveBackWithin (fuel + 1) (some p.id))
      ((p.id, none) :: visits) := by
  refine .bind_known (h.yields_roleOf hp) ?_
  rw [hrole]
  exact .visit (i := none) (h.inOrder.id p hp) (.pure fun _ hs => ⟨hs, rfl⟩) hprevious

/-- A page of a battery with items is arrived at for the item that is shown. -/
theorem meets_arriveBack_owned (h : nav.Ready s₀) (hp : p ∈ nav.pages)
    (hrole : nav.roles.ownerOf? p.id = some (b, role)) (hplan : plans b.id = some plan)
    (hc : plan.CursorAt c) (hshown : min c (plan.items.length - 1) = k)
    (hitem : plan.items[k]? = some item) (fuel : Nat)
    (hprevious : nav.Returns (s₀.Planned plans) (nav.previousPage p.id) visits) :
    nav.Meets (s₀.Planned plans) (nav.arriveBackWithin (fuel + 1) (some p.id))
      ((p.id, some item) :: visits) := by
  obtain ⟨hlt, rfl⟩ := List.getElem?_eq_some_iff.1 hitem
  refine .bind_known (h.yields_roleOf hp) ?_
  rw [hrole]
  refine .bind_known (h.yields_planOf (h.mem_batteries hrole)) ?_
  rw [hplan]
  have hne : plan.items.isEmpty = false := by
    rw [List.isEmpty_eq_false_iff]
    exact List.ne_nil_of_length_pos (Nat.zero_lt_of_lt hlt)
  dsimp only
  rw [hne]
  refine .visit (i := some ⟨plan.batteryId, plan.items[k], .int k, .int plan.items.length⟩)
    (h.inOrder.id p hp) ?_ hprevious
  exact .bind_known (.ofOk (hc.iteration hshown.symm hlt)) <| .pure fun _ hs => ⟨hs, rfl⟩

/-- A battery without items is passed over as a whole. -/
theorem meets_arriveBack_empty (h : nav.Ready s₀) (hp : p ∈ nav.pages)
    (hrole : nav.roles.ownerOf? p.id = some (b, role)) (hplan : plans b.id = some plan)
    (hempty : plan.items = []) (hsplit : nav.pages = before ++ start :: after)
    (hid : start.id = b.startPageId) (fuel : Nat)
    (hbefore : nav.Meets (s₀.Planned plans)
      (nav.arriveBackWithin fuel (nav.firstOf s₀ before.reverse)) visits) :
    nav.Meets (s₀.Planned plans) (nav.arriveBackWithin (fuel + 1) (some p.id)) visits := by
  refine .bind_known (h.yields_roleOf hp) ?_
  rw [hrole]
  refine .bind_known (h.yields_planOf (h.mem_batteries hrole)) ?_
  rw [hplan]
  dsimp only
  rw [hempty, ← hid]
  exact .bind_known (h.yields_previousInOrder hsplit) hbefore

/-! ## Passes through a block -/

/-- A pass backward visits what a pass forward does. -/
theorem pass_reverse (s : Session) (l : List Page) (item : LoopItem) :
    nav.pass s l.reverse item = (nav.pass s l item).reverse := by
  rw [pass, pass, List.filter_reverse, List.map_reverse]

/-- The visits of a block for one more item, from the last one to the first. -/
theorem reverse_passes_succ {items : List LoopItem}
    (hfinish : nav.roles.ownerOf? finish.id = some (b, .finish)) (hitem : items[k]? = some item) :
    ((items.take (k + 1)).flatMap (nav.pass s₀ (start :: (inner ++ [finish])))).reverse =
      (finish.id, some item) :: (nav.pass s₀ (inner.reverse ++ [start]) item ++
        ((items.take k).flatMap (nav.pass s₀ (start :: (inner ++ [finish])))).reverse) := by
  have hshown : nav.shows s₀ finish = true := shows_of_boundary hfinish (by simp)
  have hback : (start :: (inner ++ [finish])).reverse = finish :: (inner.reverse ++ [start]) := by
    simp
  rw [List.take_add_one, hitem, Option.toList_some, List.flatMap_append, List.flatMap_singleton,
    List.reverse_append, ← pass_reverse, hback, pass_cons, if_pos hshown]
  rfl

section Block
variable (h : nav.Ready s₀) (hblock : nav.roles.IsBlock b start inner finish)
include h hblock

/-- The rest of a pass, from some page inside the block back to the start page. The pages are listed
from the last one to the first. -/
theorem returns_inner (hplan : plans b.id = some plan) (hc : plan.CursorAt c)
    (hshown : min c (plan.items.length - 1) = k) (hitem : plan.items[k]? = some item)
    (hstart : nav.Returns (s₀.Planned plans) (nav.previousPage start.id) visits) :
    ∀ (rest after : List Page), nav.pages = before ++ start :: (rest.reverse ++ after) →
      (∀ p ∈ rest, nav.roles.ownerOf? p.id = some (b, .interior)) →
      ∀ fuel, 0 < fuel → nav.Returns (s₀.Planned plans)
        (nav.arriveBackWithin fuel (nav.firstOf s₀ (rest ++ start :: before.reverse)))
        (nav.pass s₀ (rest ++ [start]) item ++ visits)
  | [], after, hsplit, _, fuel, hfuel => by
    obtain ⟨n, rfl⟩ : ∃ n, fuel = n + 1 := ⟨fuel - 1, by omega⟩
    have hbound : nav.shows s₀ start = true := shows_of_boundary hblock.start (by simp)
    rw [List.nil_append, firstOf, List.find?_cons_of_pos hbound]
    have hmeets := h.meets_arriveBack_owned (by simp [hsplit]) hblock.start hplan hc hshown hitem n
      hstart
    simpa [pass, hbound] using hmeets.returns
  | p :: r, after, hsplit, hinner, fuel, hfuel => by
    have hp : p ∈ nav.pages := by simp [hsplit]
    have hrole := hinner p (.head _)
    have hrest := returns_inner hplan hc hshown hitem hstart r (p :: after) (by simp [hsplit])
      fun q hq => hinner q (.tail _ hq)
    rw [List.cons_append, List.cons_append, pass_cons, firstOf, List.find?_cons]
    cases hvisible : nav.shows s₀ p with
    | false => simpa [firstOf] using hrest fuel hfuel
    | true =>
      obtain ⟨n, rfl⟩ : ∃ n, fuel = n + 1 := ⟨fuel - 1, by omega⟩
      refine (h.meets_arriveBack_owned hp hrole hplan hc hshown hitem n ?_).returns
      have hp' : nav.pages = (before ++ start :: r.reverse) ++ p :: after := by simp [hsplit]
      refine h.returns_previousPage hp' (h.yields_stepBack_of_ne hp fun b' => by simp [hrole]) ?_
      simpa [arriveBack] using hrest (nav.pages.length + 1) (by omega)

variable (hsplit : nav.pages = before ++ start :: (inner ++ finish :: after))
include hsplit

/-- A pass from the end page back to the start page. -/
theorem returns_pass (hplan : plans b.id = some plan) (hc : plan.CursorAt c)
    (hshown : min c (plan.items.length - 1) = k) (hitem : plan.items[k]? = some item)
    (hstart : nav.Returns (s₀.Planned plans) (nav.previousPage start.id) visits) :
    nav.Returns (s₀.Planned plans) (nav.previousPage finish.id)
      (nav.pass s₀ (inner.reverse ++ [start]) item ++ visits) := by
  have hfinish : nav.pages = (before ++ start :: inner) ++ finish :: after := by simp [hsplit]
  have hinner : nav.pages = before ++ start :: (inner.reverse.reverse ++ finish :: after) := by
    rw [List.reverse_reverse, hsplit]
  have hreturns := h.returns_inner hblock hplan hc hshown hitem hstart inner.reverse _ hinner
    (fun p hp => hblock.inner p (List.mem_reverse.1 hp)) (nav.pages.length + 1) (by omega)
  refine h.returns_previousPage hfinish (h.yields_stepBack_of_ne (by simp [hsplit]) fun b' => by
    simp [hblock.finish]) ?_
  simpa [arriveBack] using hreturns

/-- The passes for the items before the one that is shown, from the start page on. -/
theorem returns_passes (hbefore : ∀ plan, nav.Returns (s₀.Planned (plans.put b.id plan))
      (nav.arriveBack (nav.firstOf s₀ before.reverse)) visits) :
    ∀ k c : Nat, c ≤ plan.items.length → min c (plan.items.length - 1) = k →
      nav.Returns (s₀.Planned (plans.put b.id (plan.moved c))) (nav.previousPage start.id)
        (((plan.items.take k).flatMap (nav.pass s₀ (start :: (inner ++ [finish])))).reverse ++
          visits)
  -- The induction is on the item that is shown. The cursor `c` is apart from it at first only: it
  -- is behind the last item then, and at the shown one after a step back.
  | 0, c, hc, hshown => by
    refine h.returns_previousPage hsplit ?_ (hbefore _)
    exact h.yields_stepBack_first (by simp [hsplit]) hblock.start (Plans.put_self _ _ _)
      (LoopPlan.cursorAt_moved hc) hshown
  | k + 1, c, hc, hshown => by
    have hlt : k < plan.items.length := by omega
    have hitem : plan.items[k]? = some plan.items[k] := List.getElem?_eq_getElem hlt
    have hstep := h.yields_stepBack (by simp [hsplit]) hblock.start (Plans.put_self plans b.id _)
      (LoopPlan.cursorAt_moved hc) hshown hitem
    rw [Plans.put_put, LoopPlan.moved_moved, ← hblock.finishId] at hstep
    rw [reverse_passes_succ hblock.finish hitem, List.cons_append, List.append_assoc]
    refine h.returns_previousPage_loop hsplit (h.inOrder.id finish (by simp [hsplit])) hstep ?_
    have hk : k ≤ plan.items.length := Nat.le_of_lt hlt
    have hmin : min k (plan.items.length - 1) = k := by omega
    exact h.returns_pass hblock hsplit (Plans.put_self _ _ _) (LoopPlan.cursorAt_moved hk) hmin
      hitem (returns_passes hbefore k k hk hmin)

/-- A block whose plan has its cursor behind the last item: it is walked through backward once per
item, and then the pages before are reached. -/
theorem meets_block (hplan : plans b.id = some plan) (hdone : plan.CursorAt plan.items.length)
    (fuel : Nat)
    (hempty : nav.Meets (s₀.Planned plans)
      (nav.arriveBackWithin fuel (nav.firstOf s₀ before.reverse)) visits)
    (hitems : ∀ plan, nav.Returns (s₀.Planned (plans.put b.id plan))
      (nav.arriveBack (nav.firstOf s₀ before.reverse)) visits) :
    nav.Meets (s₀.Planned plans)
      (nav.arriveBackWithin (fuel + 1)
        (nav.firstOf s₀ (finish :: (inner.reverse ++ start :: before.reverse))))
      ((plan.items.flatMap (nav.pass s₀ (start :: (inner ++ [finish])))).reverse ++ visits) := by
  have hfinish : finish ∈ nav.pages := by simp [hsplit]
  have hshown : nav.shows s₀ finish = true := shows_of_boundary hblock.finish (by simp)
  rw [firstOf, List.find?_cons_of_pos hshown]
  rcases Nat.eq_zero_or_eq_succ_pred plan.items.length with hlen | hlen
  · have hnil : plan.items = [] := List.length_eq_zero_iff.1 hlen
    rw [hnil]
    exact h.meets_arriveBack_empty hfinish hblock.finish hplan hnil hsplit hblock.startId fuel
      hempty
  · generalize plan.items.length.pred = k at hlen
    have hlt : k < plan.items.length := by omega
    have hitem : plan.items[k]? = some plan.items[k] := List.getElem?_eq_getElem hlt
    have hmin : min plan.items.length (plan.items.length - 1) = k := by omega
    have hmoved : plan.moved plan.items.length = plan := hdone.eq_moved.symm
    have hpasses := h.returns_passes hblock hsplit hitems k _ (Nat.le_refl plan.items.length) hmin
    rw [hmoved] at hpasses
    have hstart : nav.Returns (s₀.Planned plans) (nav.previousPage start.id) _ :=
      hpasses.mono fun s hs => by rwa [hs.put_eq hplan]
    have hpass := h.returns_pass hblock hsplit hplan hdone hmin hitem hstart
    have hmeets := h.meets_arriveBack_owned hfinish hblock.finish hplan hdone hmin hitem fuel hpass
    have htake : plan.items.take (k + 1) = plan.items := List.take_of_length_le (by omega)
    rw [← htake, reverse_passes_succ hblock.finish hitem, List.cons_append, List.append_assoc]
    exact hmeets

end Block

/-! ## Segments one after the other -/

/-- The visits in some segments that are done, from the last page on. The segments are listed from
the last one to the first. -/
theorem meets_segments (h : nav.Ready s₀) (s : Session) :
    ∀ (segs : List Segment) (after : List Page) (plans : Plans),
      nav.pages = segs.reverse.flatMap Segment.pages ++ after →
      (∀ seg ∈ segs, seg.Proper nav.survey nav.roles) →
      (segs.Pairwise fun x y => ∀ b ∈ x.battery?, ∀ c ∈ y.battery?, b ≠ c) →
      (∀ seg ∈ segs, seg.Done s plans) → ∀ fuel, segs.length < fuel →
      nav.Meets (s₀.Planned plans)
        (nav.arriveBackWithin fuel (nav.firstOf s₀ (segs.reverse.flatMap Segment.pages).reverse))
        (segs.reverse.flatMap (nav.visitsIn s₀ s)).reverse
  | [], _, plans, _, _, _, _, fuel, _ => arriveBackWithin_none fuel ▸ .nowhere
  | seg :: segs, after, plans, hsplit, hproper, hapart, hdone, fuel, hfuel => by
    obtain ⟨n, rfl⟩ : ∃ n, fuel = n + 1 := ⟨fuel - 1, by omega⟩
    have hn : segs.length < n := Nat.lt_of_succ_lt_succ hfuel
    simp only [List.reverse_cons, List.flatMap_append, List.flatMap_singleton, List.reverse_append,
      List.append_assoc] at hsplit ⊢
    have hlen : segs.length < nav.pages.length + 1 := by
      have := Segment.length_le_flatMap segs.reverse
      rw [hsplit, List.length_append]
      rw [List.length_reverse] at this
      omega
    rw [List.pairwise_cons] at hapart
    have hrest (plans : Plans) := meets_segments h s segs (seg.pages ++ after) plans hsplit
      (fun x hx => hproper x (.tail _ hx)) hapart.2
    cases seg with
    | single p =>
      have hp : p ∈ nav.pages := by simp [hsplit, Segment.pages]
      have hrole : nav.roles.ownerOf? p.id = none := hproper _ (.head _)
      have hmeets := hrest plans fun x hx => hdone x (.tail _ hx)
      rw [visitsIn]
      cases hshown : nav.shows s₀ p with
      | true =>
        have hvisit := h.meets_arriveBack_free hp hrole n <| h.returns_previousPage hsplit
          (h.yields_stepBack_of_ne hp fun b => by simp [hrole]) (hmeets _ hlen).returns
        simpa [Segment.pages, firstOf, hshown] using hvisit
      | false =>
        have hpassed := hmeets (n + 1) (Nat.lt_succ_of_lt hn)
        simpa [Segment.pages, firstOf, hshown] using hpassed
    | block b start inner finish =>
      obtain ⟨hb, hblock⟩ := hproper _ (.head _)
      obtain ⟨plan, hplan, hc, hitems⟩ := hdone _ (.head _) b rfl
      have hsplit' : nav.pages = segs.reverse.flatMap Segment.pages ++
          start :: (inner ++ finish :: after) := by simp [hsplit, Segment.pages]
      have hblocks := h.meets_block hblock hsplit' hplan hc n
        (hrest plans (fun x hx => hdone x (.tail _ hx)) n hn) fun plan => by
          -- Stepping back moves the cursor of this battery; those before it are done still.
          refine (hrest (plans.put b.id plan) (fun x hx c hc => ?_) _ hlen).returns
          have hother : b.id.agrees c.id = false := h.agrees_eq_false hb
            ((hproper x (.tail _ hx)).mem_batteries hc) (hapart.1 x hx b rfl c hc)
          rw [Plans.put_of_agrees_eq_false ((Value.agrees_comm _ _).trans hother)]
          exact hdone x (.tail _ hx) c hc
      rw [visitsIn, hitems]
      simpa [Segment.pages] using hblocks

/-- The walk forward through the segments of a survey. -/
theorem exists_forwardWalk {d : Desk} (h : nav.Ready d.session)
    (hnew : ∀ id, d.session.plan? id = none) {segs : List Segment}
    (hpages : nav.pages = segs.flatMap Segment.pages)
    (hproper : ∀ seg ∈ segs, seg.Proper nav.survey nav.roles)
    (hapart : segs.Pairwise fun x y => ∀ b ∈ x.battery?, ∀ c ∈ y.battery?, b ≠ c) :
    ∃ d', nav.ForwardWalk d (segs.flatMap (nav.visitsIn d.session d'.session)) d' ∧
      Walked nav d.session segs (fun _ => none) d'.session := by
  have hcompletes := h.completes_segments segs [] (fun _ => none) hpages hproper hapart
    (fun _ _ _ _ => rfl) (2 * (nav.pages.length + 1)) (by
      have := Segment.length_le_flatMap segs
      rw [← hpages] at this
      omega)
  rw [← hpages] at hcompletes
  obtain ⟨l, d₁, visits, d', hfirst, hwalk, rfl, hwalked⟩ :=
    h.completes_firstPage hcompletes d ⟨rfl, rfl, hnew⟩
  exact ⟨d', ⟨l, d₁, hfirst, hwalk⟩, hwalked⟩

/-- The segments of a walk forward are done after it. -/
theorem Walked.segment_done {segs : List Segment} {s : Session} (h : Walked nav s₀ segs plans s)
    {seg : Segment} (hseg : seg ∈ segs) : seg.Done s fun id => s.plan? id := by
  intro b hb
  obtain ⟨plan, hplan, -⟩ := h.made seg hseg b hb
  refine ⟨plan, hplan, h.done seg hseg b hb plan hplan, ?_⟩
  rw [Session.itemsOf, hplan]
  rfl

end Ready

/-- A page that is shown and that no battery owns is visited. -/
theorem mem_visitsIn_of_free {segs : List Segment} {survey : Survey}
    (hproper : ∀ seg ∈ segs, seg.Proper survey nav.roles) {p : Page}
    (hp : p ∈ segs.flatMap Segment.pages) (hrole : nav.roles.ownerOf? p.id = none) {s₀ s : Session}
    (hshown : nav.shows s₀ p = true) : (p.id, none) ∈ segs.flatMap (nav.visitsIn s₀ s) := by
  obtain ⟨seg, hseg, hp⟩ := List.mem_flatMap.1 hp
  have howner := (hproper seg hseg).owner hp
  refine List.mem_flatMap.2 ⟨seg, hseg, ?_⟩
  cases seg with
  | single q =>
    obtain rfl := List.mem_singleton.1 hp
    simp [visitsIn, hshown]
  | block => simp [hrole, Segment.battery?] at howner

/-- A walk forward has a last visit if some page is shown that comes before all batteries. -/
theorem exists_last_visit {survey : Survey} (htyped : survey.Typed) (hdistinct : survey.Distinct)
    {skipHidden quiet : Bool} {d : Desk} (hnew : ∀ id, d.session.plan? id = none)
    (hverdict : skipHidden = true → ∀ p ∈ survey.pages,
      ∃ shown, (ofSurvey survey skipHidden quiet).verdict d.session p = .ok shown)
    {p : Page} (hp : p ∈ survey.pages)
    (hbefore : ∀ b ∈ survey.batteries, ∀ q ∈ survey.pages, q.id = b.startPageId → p.rank < q.rank)
    (hshown : (ofSurvey survey skipHidden quiet).shows d.session p = true) :
    ∃ visits last d', (ofSurvey survey skipHidden quiet).ForwardWalk d (visits ++ [last]) d' := by
  have hready : (ofSurvey survey skipHidden quiet).Ready d.session :=
    .ofSurvey htyped hdistinct hverdict
  obtain ⟨segs, hpages, hproper, hapart⟩ := survey.exists_segments htyped hdistinct
  obtain ⟨d', hforward, -⟩ := hready.exists_forwardWalk hnew hpages hproper hapart
  have hmem : p ∈ survey.pagesInOrder := (sortedBy_perm _ _).mem_iff.2 hp
  rw [hpages] at hmem
  have hvisit : (p.id, none) ∈ segs.flatMap
      ((ofSurvey survey skipHidden quiet).visitsIn d.session d'.session) :=
    mem_visitsIn_of_free hproper hmem (htyped.ownerOf?_eq_none hdistinct hp hbefore) hshown
  obtain ⟨visits, last, hlast⟩ := (List.eq_nil_or_concat' _).resolve_left
    (List.ne_nil_of_mem hvisit)
  exact ⟨visits, last, d', hlast ▸ hforward⟩

/-! ## Walking back reverses -/

/-- Walking back reverses. Take a survey whose parts have the declared types, and whose page ids,
page indexes and battery ids are distinct, and a session without plans for which there is a verdict
on every page that may be hidden. If the walk forward from the first page on has a last visit, then
leaving its page backward, and every page that this leads to, visits the other pages of the walk in
reverse order, each for the same item, and then there is no page before. -/
theorem walkBack_reverses {survey : Survey} (htyped : survey.Typed) (hdistinct : survey.Distinct)
    (skipHidden quiet : Bool) {d : Desk} (hnew : ∀ id, d.session.plan? id = none)
    (hverdict : skipHidden = true → ∀ p ∈ survey.pages,
      ∃ shown, (ofSurvey survey skipHidden quiet).verdict d.session p = .ok shown)
    {visits : List Visit} {last : Visit} {d' : Desk}
    (hforward : (ofSurvey survey skipHidden quiet).ForwardWalk d (visits ++ [last]) d')
    {e : Desk} (hsession : e.session = d'.session) :
    let nav := ofSurvey survey skipHidden quiet
    ∃ l e₁ e₂, (nav.previousPage last.1).perform e = (.ok l, e₁) ∧
      nav.WalkBack l e₁ visits.reverse e₂ ∧
      ∀ visits' e', nav.WalkBack l e₁ visits' e' → visits' = visits.reverse ∧ e' = e₂ := by
  intro nav
  have hready : nav.Ready d.session := .ofSurvey htyped hdistinct hverdict
  obtain ⟨segs, hpages, hproper, hapart⟩ := survey.exists_segments htyped hdistinct
  have hpages : nav.pages = segs.flatMap Segment.pages := hpages
  obtain ⟨d'', hwalk, hwalked⟩ := hready.exists_forwardWalk hnew hpages hproper hapart
  obtain ⟨hvisits, rfl⟩ := hforward.unique hwalk
  have hmeets := hready.meets_segments d'.session segs.reverse [] (fun id => d'.session.plan? id)
    (by simpa using hpages) (fun seg hseg => hproper seg (List.mem_reverse.1 hseg))
    (List.pairwise_reverse.2 (hapart.imp fun hne b hb c hc => (hne c hc b hb).symm))
    (fun seg hseg => hwalked.segment_done (List.mem_reverse.1 hseg)) (segs.length + 1) (by simp)
  rw [List.reverse_reverse, ← hvisits, List.reverse_append] at hmeets
  obtain ⟨-, hreturns⟩ := hmeets
  obtain ⟨l, e₁, e₂, hprevious, hback⟩ :=
    hreturns e ⟨by rw [hsession, hwalked.responses], by rw [hsession, hwalked.embedded],
      fun id => by rw [hsession]⟩
  exact ⟨l, e₁, e₂, hprevious, hback, fun _ _ h => h.unique hback⟩

end Navigator

namespace Sample.BrandTracker

/-- There is a verdict on every page for the respondent who has heard of two brands. -/
theorem verdict_aware : ∀ p ∈ (survey (.int 2)).pages, ∃ shown,
    (Navigator.ofSurvey (survey (.int 2)) true false).verdict aware p = .ok shown := by
  intro p hp
  have hjudged : ∀ p ∈ (survey (.int 2)).pages,
      ((Navigator.ofSurvey (survey (.int 2)) true false).verdict aware p).isOk = true := by
    decide +kernel
  exact Navigator.exists_verdict (hjudged p hp)

/-- That respondent is shown the first page. -/
theorem shows_screener :
    (Navigator.ofSurvey (survey (.int 2)) true false).shows aware (pages[0]) = true := by
  have hverdict : (Navigator.ofSurvey (survey (.int 2)) true false).verdict aware (pages[0]) =
      .ok true := rfl
  rw [Navigator.shows, hverdict]
  exact Bool.or_true _

/-- No battery starts at the first page. -/
theorem screener_before : ∀ b ∈ (survey (.int 2)).batteries, ∀ q ∈ (survey (.int 2)).pages,
    q.id = b.startPageId → (pages[0]).rank < q.rank := by
  decide

end Sample.BrandTracker

open Sample BrandTracker in
/-- The way back through two batteries next to each other. -/
theorem Navigator.walkBack_reverses_brandTracker :
    let nav := ofSurvey (BrandTracker.survey (.int 2)) true false
    ∃ visits last d', nav.ForwardWalk ⟨aware, .ofScript [0], []⟩ (visits ++ [last]) d' ∧
      ∃ l e₁ e₂, (nav.previousPage last.1).perform d' = (.ok l, e₁) ∧
        nav.WalkBack l e₁ visits.reverse e₂ ∧
        ∀ visits' e', nav.WalkBack l e₁ visits' e' → visits' = visits.reverse ∧ e' = e₂ := by
  have hnew : ∀ id, aware.plan? id = none := Register.get?_empty
  obtain ⟨visits, last, d', hforward⟩ := exists_last_visit (d := ⟨aware, .ofScript [0], []⟩) typed
    distinct hnew (fun _ => verdict_aware) (List.getElem_mem _) screener_before shows_screener
  exact ⟨visits, last, d', hforward,
    walkBack_reverses typed distinct true false hnew (fun _ => verdict_aware) hforward rfl⟩

end Questionnaire
