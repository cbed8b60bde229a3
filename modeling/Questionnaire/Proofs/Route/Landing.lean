import Questionnaire.Proofs.Route.Restarting

/-!
# Where navigation says it leads

Navigation answers with a landing that it puts together as it goes: from the plan that it made, from
one whose cursor it moved, or from none at all. The session it leaves shows the page for the same
iteration (`Navigator.OnPage`), since a plan that is landed with is the one that was stored last
(`Navigator.skipStale_stored`, `Navigator.enter_stored`). So it does not matter whether the place is
taken from the answer or read off the session afterwards (`Navigator.iterationIn`).
-/

namespace Questionnaire

open Flow

namespace Navigator

variable {nav : Navigator}

/-! ## Reading the iteration of a page -/

/-- The iteration for which a page is shown in a session. -/
def iterationIn (nav : Navigator) (id : Id) (s : Session) : Except Fault (Option Iteration) :=
  (demandKeys [id]).bind fun _ =>
    match nav.roles.roleOf? id with
    | none => .ok none
    | some (b, _) =>
      (demandKeys [b.id]).bind fun _ =>
        match s.plan? b.id with
        | none => .ok none
        | some p => p.iteration

theorem reads_iterationOf (id : Id) : (nav.iterationOf id).Reads (nav.iterationIn id) := by
  have hplan (o : Option LoopPlan) : Reads
      (match o with
        | none => pure none
        | some p => Flow.ofResult p.iteration)
      fun _ => match o with
        | none => .ok none
        | some p => p.iteration := by
    cases o with
    | none => exact .pure none
    | some p => exact .ofResult p.iteration
  have hrole (o : Option (Battery × LoopRole)) : Reads
      (match o with
        | none => pure none
        | some (b, _) => do
          match ← planOf b.id with
          | none => pure none
          | some p => Flow.ofResult p.iteration)
      fun s => match o with
        | none => .ok none
        | some (b, _) => (demandKeys [b.id]).bind fun _ =>
          match s.plan? b.id with
          | none => .ok none
          | some p => p.iteration := by
    cases o with
    | none => exact .pure none
    | some x =>
      obtain ⟨b, role⟩ := x
      refine ((reads_planOf b.id).bind hplan).congr fun s => ?_
      dsimp only
      cases demandKeys [b.id] <;> rfl
  refine (Reads.bind (.bind (.ofResult (demandKeys [id])) fun _ => .pure _) hrole).congr fun s => ?_
  unfold iterationIn
  cases demandKeys [id] <;> rfl

/-- The iteration for which a page is shown can be told if something can be kept under the ids of
the page and its battery. -/
theorem exists_iterationIn {id : Id} {s : Session} (hid : id.isCompound = false)
    (hkeys : ∀ b role, nav.roles.roleOf? id = some (b, role) → b.id.isCompound = false)
    (hs : s.Counted) : ∃ i, nav.iterationIn id s = .ok i := by
  have hdemand : ∀ j : Id, j.isCompound = false → demandKeys [j] = .ok () := fun j hj =>
    demandKeys_eq_ok_iff.2 (List.forall_mem_singleton.2 hj)
  unfold iterationIn
  rw [hdemand id hid]
  dsimp only [Except.bind]
  split
  · exact ⟨none, rfl⟩
  · next b role hb =>
    rw [hdemand b.id (hkeys b role hb)]
    dsimp only
    split
    · exact ⟨none, rfl⟩
    · next p hp =>
      obtain ⟨c, hc⟩ := hs _ p hp
      exact hc.exists_iteration

/-- A landing on a page of the survey, with the iteration for which a session shows the page. -/
def OnPage (nav : Navigator) (s : Session) (l : Landing) : Prop :=
  ∃ p ∈ nav.pages, ∃ i, l = .on p.id i ∧ nav.iterationIn p.id s = .ok i

/-- Nowhere, or a page of the survey. -/
def Known (nav : Navigator) (o : Option Id) : Prop := ∀ id, o = some id → ∃ q ∈ nav.pages, q.id = id

/-- Nowhere, or on a page before a place. -/
def Ahead (nav : Navigator) (r : Int) (o : Option Id) : Prop :=
  ∀ id, o = some id → ∃ q ∈ nav.pages, q.id = id ∧ q.rank < r

variable {s : Session} {P : Session → Prop} {p : Page} {b : Battery} {plan : LoopPlan}
  {role : LoopRole} {r : Int} {o : Option Id} {l : Landing}

theorem Behind.known (h : nav.Behind r o) : nav.Known o := fun id hid =>
  (h id hid).imp fun _ hq => ⟨hq.1, hq.2.1⟩

theorem Ahead.known (h : nav.Ahead r o) : nav.Known o := fun id hid =>
  (h id hid).imp fun _ hq => ⟨hq.1, hq.2.1⟩

theorem Known.mem {id : Id} (h : nav.Known (some id)) : ∃ p ∈ nav.pages, p.id = id := h id rfl

/-! ## Plans that are landed with -/

/-- A plan whose cursor was moved over stale items is stored. -/
theorem skipStale_stored : Ensures (fun s => s.plan? b.id = some plan) (nav.skipStale b plan)
    fun q s => s.plan? b.id = some q := by
  refine .bind Keeps.ofResult fun _ => .ite (fun _ => .pure fun _ hs => hs) fun _ => ?_
  refine .bind Keeps.session fun t => .bind Keeps.logAll fun _ => .bind Keeps.ofResult fun _ => ?_
  refine .bind Keeps.demandKeys fun _ => .bind Keeps.logAll fun _ => ?_
  refine .bind (.update (Q := fun _ s => s.plan? b.id = some { plan with cursor :=
    (plan.passage (Planning.liveKeys b nav.survey t.responses)).cursor }) fun s _ => ?_) fun _ => ?_
  · exact s.plan?_setPlan_self _ _
  · split
    · exact .pure fun _ hs => hs
    · exact .throw

/-- The plan of a battery on arrival is stored. -/
theorem enter_stored : Ensures P (nav.enter b) fun x s => s.plan? b.id = some x.1 := by
  refine bind_planOf fun o => ?_
  cases o with
  | some p =>
    exact .bind Keeps.ofResult fun _ => .bind (skipStale_stored.mono (fun _ hs => hs.2)
      fun _ _ hs => hs) fun _ => .pure fun _ hs => hs
  | none =>
    refine .bind Keeps.session fun t => .bind (Q := fun _ _ => True) (fun _ _ _ _ _ => trivial)
      fun o => ?_
    refine .bind (.update (Q := fun _ s => s.plan? b.id = some (o.getD (.skipped b.id)))
      fun s _ => ?_) fun _ => .pure fun _ hs => hs
    exact s.plan?_setPlan_self _ _

namespace Oriented

/-- A page that no battery owns is shown for no iteration. -/
theorem iterationIn_free (h : nav.Oriented) (hp : p ∈ nav.pages)
    (hrole : nav.roles.ownerOf? p.id = none) (s : Session) : nav.iterationIn p.id s = .ok none := by
  unfold iterationIn
  rw [demandKeys_of_isText (List.forall_mem_singleton.2 (h.inOrder.id p hp)), h.roleOf?_eq hp,
    hrole]
  rfl

/-- A page of a battery is shown for the iteration of its plan. -/
theorem iterationIn_owned (h : nav.Oriented) (hp : p ∈ nav.pages)
    (hrole : nav.roles.ownerOf? p.id = some (b, role)) (hplan : s.plan? b.id = some plan) :
    nav.iterationIn p.id s = plan.iteration := by
  have hb : b.id.isText = true := h.typed.batteryId b (h.mem_batteries hrole)
  unfold iterationIn
  rw [demandKeys_of_isText (List.forall_mem_singleton.2 (h.inOrder.id p hp)), h.roleOf?_eq hp,
    hrole]
  simp only [Except.bind, demandKeys_of_isText (List.forall_mem_singleton.2 hb), hplan]

theorem accepts (h : nav.Oriented) {id : Id} (hrole : nav.roles.ownerOf? id = some (b, role)) :
    nav.survey.Accepts b := by
  obtain ⟨st, hst, rfl, -⟩ := RoleTable.exists_of_ownerOf? hrole
  exact ⟨st, h.roles ▸ hst, rfl⟩

theorem proper (h : nav.Oriented) : nav.Proper := fun st hst => ⟨st, h.roles ▸ hst, rfl⟩

/-- The ends of a battery are pages of the survey that it owns. -/
theorem exists_ends (h : nav.Oriented) (hb : nav.survey.Accepts b) :
    (∃ start ∈ nav.pages, start.id = b.startPageId ∧
      ∃ role, nav.roles.ownerOf? start.id = some (b, role)) ∧
    ∃ finish ∈ nav.pages, finish.id = b.endPageId ∧
      ∃ role, nav.roles.ownerOf? finish.id = some (b, role) := by
  obtain ⟨st, hst, rfl⟩ := hb
  have hL := h.inOrder
  rw [h.pages] at hL ⊢
  rw [h.roles]
  obtain ⟨start, finish, hends⟩ := h.typed.exists_ends hL hst
  have howned : ∀ p ∈ nav.survey.pagesInOrder, start.rank ≤ p.rank ∧ p.rank ≤ finish.rank →
      ∃ role, (RoleTable.ofSurvey nav.survey).1.ownerOf? p.id = some (st.battery, role) :=
    fun p hp hin => ⟨_, RoleTable.ownerOf?_of_mem (RoleTable.pairwise_ofSurvey _) hst
      ((hends.mem_iff p hp).2 hin)⟩
  have hlt := hends.lt
  exact ⟨⟨start, hends.start_mem, hends.startId, howned start hends.start_mem (by omega)⟩,
    finish, hends.finish_mem, hends.finishId, howned finish hends.finish_mem (by omega)⟩

theorem previousInOrder_ahead (h : nav.Oriented) (hp : p ∈ nav.pages) :
    Ensures P (nav.previousInOrder p.id) fun o _ => nav.Ahead p.rank o := by
  obtain ⟨before, after, hsplit⟩ := List.append_of_mem hp
  have hL := h.inOrder
  rw [hsplit] at hL
  refine .bind (h.yields_around hsplit).ensures fun x => .given (fun _ hs => hs.2) fun hx => ?_
  subst hx
  refine (firstShown_ensures before.reverse).mono (fun _ hs => hs) fun o _ ho id hid => ?_
  obtain ⟨q, hq, hqid⟩ := ho id hid
  have hq := List.mem_reverse.1 hq
  exact ⟨q, by simp [hsplit, hq], hqid, hL.earlier q hq⟩

/-- Arriving from behind leads to no page behind. -/
theorem arriveBackWithin_ahead (h : nav.Oriented) : ∀ (fuel : Nat) (o : Option Id), nav.Ahead r o →
    Ensures (fun _ => True) (nav.arriveBackWithin fuel o) fun l _ => nav.Ahead r l.pageId
  | fuel, none, ho => by
    rw [arriveBackWithin_none]
    exact .pure fun _ _ => ho
  | 0, some _, _ => .throw
  | fuel + 1, some id, ho => by
    obtain ⟨p, hp, rfl, hr⟩ := ho id rfl
    have hon : ∀ i, nav.Ahead r (Landing.on p.id i).pageId := by
      intro i id hid
      have hid : p.id.given? = some id := hid
      rw [h.inOrder.given?_id hp] at hid
      cases hid
      exact ⟨p, hp, rfl, hr⟩
    refine .bind (h.yields_roleOf hp).ensures fun role => .given (fun _ hs => hs.2) fun hrole => ?_
    split
    · exact .pure fun _ _ => hon _
    · next b role =>
      rw [← h.roleOf?_eq hp] at hrole
      obtain ⟨p', hp', hid, start, hstart, hsid, hle, -⟩ := h.exists_bounds hrole.symm
      cases h.inOrder.eq_of_id hp' hp hid
      have hback : ∀ {P : Session → Prop}, Ensures P
          (do nav.arriveBackWithin fuel (← nav.previousInOrder b.startPageId))
          fun l _ => nav.Ahead r l.pageId := by
        intro P
        rw [← hsid]
        refine .bind (h.previousInOrder_ahead hstart) fun o => .given (fun _ hs => hs) fun ho => ?_
        have hahead : nav.Ahead r o := fun id hid => by
          obtain ⟨q, hq, hqid, hlt⟩ := ho id hid
          exact ⟨q, hq, hqid, by omega⟩
        have hrest := arriveBackWithin_ahead h fuel o hahead
        exact hrest.mono (fun _ _ => trivial) fun _ _ hl => hl
      refine bind_planOf fun o => ?_
      split
      · refine .ite (fun _ => hback) fun _ => ?_
        exact .bind Keeps.ofResult fun _ => .pure fun _ _ => hon _
      · exact hback

/-- A landing on a page of a battery with the iteration of its stored plan. -/
theorem landed_owned (h : nav.Oriented) (hp : p ∈ nav.pages)
    (hrole : nav.roles.ownerOf? p.id = some (b, role)) :
    Ensures (fun s => s.plan? b.id = some plan)
      (do pure (Landing.on p.id (← Flow.ofResult plan.iteration))) fun l s => nav.OnPage s l := by
  refine .bind .ofResult fun i => .pure fun s hs => ⟨p, hp, i, rfl, ?_⟩
  rw [h.iterationIn_owned hp hrole hs.1, hs.2]

/-! ## Moving forward -/

theorem arriveWithin_onPage (h : nav.Oriented) : ∀ (fuel : Nat) (o : Option Id), nav.Known o →
    Ensures (fun _ => True) (nav.arriveWithin fuel o) fun l s => l = .finished ∨ nav.OnPage s l
  | 0, none, _ | _ + 1, none, _ => .pure fun _ _ => .inl rfl
  | 0, some _, _ => .throw
  | fuel + 1, some id, ho => by
    obtain ⟨p, hp, rfl⟩ := ho.mem
    refine .bind (h.yields_roleOf hp).ensures fun role => .given (fun _ hs => hs.2) fun hrole => ?_
    split
    · next b =>
      refine .bind enter_stored fun x =>
        .bind Keeps.ofResult fun _ => .ite (fun _ => ?_) fun _ => ?_
      · exact (h.landed_owned hp hrole.symm).mono (fun _ hs => hs) fun _ _ hl => .inr hl
      · obtain ⟨-, finish, hfinish, hfid, -⟩ := h.exists_ends (h.accepts hrole.symm)
        rw [← hfid]
        refine .bind Keeps.log fun _ => .bind (h.nextInOrder_behind hfinish) fun o => ?_
        refine .given (fun _ hs => hs) fun ho => ?_
        exact (h.arriveWithin_onPage fuel o ho.known).mono (fun _ _ => trivial) fun _ _ hl => hl
    · refine .bind (.of_reads (reads_iterationOf p.id)) fun i => .pure fun s hs => ?_
      exact .inr ⟨p, hp, i, rfl, hs.2⟩

theorem arrive_onPage (h : nav.Oriented) (ho : nav.Known o) :
    Ensures P (nav.arrive o) fun l s => l = .finished ∨ nav.OnPage s l :=
  (h.arriveWithin_onPage _ o ho).mono (fun _ _ => trivial) fun _ _ hl => hl

theorem firstPage_onPage (h : nav.Oriented) :
    Ensures P nav.firstPage fun l s => l = .finished ∨ nav.OnPage s l := by
  unfold firstPage
  split
  · exact .pure fun _ _ => .inl rfl
  · next p rest hpages =>
    have hp : p ∈ nav.pages := hpages ▸ .head rest
    refine .bind (preserves_isShown p.id).keeps fun _ => .ite (fun _ => ?_) fun _ => ?_
    · refine h.arrive_onPage fun id hid => ⟨p, hp, ?_⟩
      rw [h.inOrder.given?_id hp] at hid
      exact Option.some.inj hid
    · exact .bind (h.nextInOrder_behind hp) fun o =>
        .given (fun _ hs => hs) fun ho => h.arrive_onPage ho.known

theorem continueLoop_onPage (h : nav.Oriented) (hp : p ∈ nav.pages) :
    Ensures P (nav.continueLoop p.id) fun o s => ∀ l, o = some l → nav.OnPage s l := by
  have hnone : ∀ {P : Session → Prop}, Ensures P (pure none : Flow (Option Landing))
      fun o s => ∀ l, o = some l → nav.OnPage s l := .pure fun _ _ _ hl => nomatch hl
  refine .bind (h.yields_roleOf hp).ensures fun role => .given (fun _ hs => hs.2) fun hrole => ?_
  split
  · next b =>
    obtain ⟨⟨start, hstart, hsid, role, hsrole⟩, -⟩ := h.exists_ends (h.accepts hrole.symm)
    refine bind_planOf fun o => ?_
    split
    · exact hnone
    · refine .bind Keeps.ofResult fun _ => .ite (fun _ => hnone) fun _ => ?_
      refine .bind Keeps.ofResult fun p => .bind (.update (Q := fun _ s => s.plan? b.id = some p)
        fun s _ => ?_) fun _ => .bind skipStale_stored fun q => ?_
      · exact s.plan?_setPlan_self _ _
      refine .bind Keeps.ofResult fun _ => .ite (fun _ => .bind Keeps.log fun _ => hnone)
        fun _ => .bind Keeps.log fun _ => ?_
      rw [← hsid]
      refine .bind .ofResult fun i => .pure fun s hs l hl => ?_
      cases hl
      exact ⟨start, hstart, i, rfl, by rw [h.iterationIn_owned hstart hsrole hs.1, hs.2]⟩
  · exact hnone

/-- Leaving a page forward leads past the last page or onto the page that is told. -/
theorem nextPage_onPage (h : nav.Oriented) (hp : p ∈ nav.pages) :
    Ensures P (nav.nextPage p.id) fun l s => l = .finished ∨ nav.OnPage s l := by
  refine .bind (preserves_around p.id).keeps fun _ => .bind (h.continueLoop_onPage hp) fun o => ?_
  split
  · exact .pure fun _ hs => .inr (hs _ rfl)
  · exact .bind (h.nextInOrder_behind hp) fun o =>
      .given (fun _ hs => hs) fun ho => h.arrive_onPage ho.known

/-! ## Moving backward -/

theorem arriveBackWithin_onPage (h : nav.Oriented) : ∀ (fuel : Nat) (o : Option Id), nav.Known o →
    Ensures (fun _ => True) (nav.arriveBackWithin fuel o)
      fun l s => l = .nowhere ∨ nav.OnPage s l
  | 0, none, _ | _ + 1, none, _ => .pure fun _ _ => .inl rfl
  | 0, some _, _ => .throw
  | fuel + 1, some id, ho => by
    obtain ⟨p, hp, rfl⟩ := ho.mem
    refine .bind (h.yields_roleOf hp).ensures fun role => .given (fun _ hs => hs.2) fun hrole => ?_
    split
    · exact .pure fun s _ => .inr ⟨p, hp, none, rfl, h.iterationIn_free hp hrole.symm s⟩
    · next b role =>
      obtain ⟨⟨start, hstart, hsid, -⟩, -⟩ := h.exists_ends (h.accepts hrole.symm)
      have hback : ∀ {P : Session → Prop}, Ensures P
          (do nav.arriveBackWithin fuel (← nav.previousInOrder b.startPageId))
          fun l s => l = .nowhere ∨ nav.OnPage s l := by
        rw [← hsid]
        refine .bind (h.previousInOrder_ahead hstart) fun o => .given (fun _ hs => hs) fun ho => ?_
        exact (h.arriveBackWithin_onPage fuel o ho.known).mono (fun _ _ => trivial)
          fun _ _ hl => hl
      refine bind_planOf fun o => ?_
      split
      · refine .ite (fun _ => hback) fun _ => ?_
        exact (h.landed_owned hp hrole.symm).mono (fun _ hs => hs.2) fun _ _ hl => .inr hl
      · exact hback

theorem stepBack_onPage (h : nav.Oriented) (hp : p ∈ nav.pages) :
    Ensures P (nav.stepBack p.id) fun o s => ∀ l, o = some l → nav.OnPage s l := by
  have hnone : ∀ {P : Session → Prop}, Ensures P (pure none : Flow (Option Landing))
      fun o s => ∀ l, o = some l → nav.OnPage s l := .pure fun _ _ _ hl => nomatch hl
  refine .bind (h.yields_roleOf hp).ensures fun role => .given (fun _ hs => hs.2) fun hrole => ?_
  split
  · next b =>
    obtain ⟨-, finish, hfinish, hfid, role, hfrole⟩ := h.exists_ends (h.accepts hrole.symm)
    refine bind_planOf fun o => ?_
    split
    · exact hnone
    · refine .bind Keeps.ofResult fun o => ?_
      split
      · exact hnone
      · next q =>
        refine .bind (.update (Q := fun _ s => s.plan? b.id = some q) fun s _ => ?_) fun _ => ?_
        · exact s.plan?_setPlan_self _ _
        rw [← hfid]
        refine .bind .ofResult fun i => .pure fun s hs l hl => ?_
        cases hl
        exact ⟨finish, hfinish, i, rfl, by rw [h.iterationIn_owned hfinish hfrole hs.1, hs.2]⟩
  · exact hnone

/-- Leaving a page backward leads before the first page or onto the page that is told. -/
theorem previousPage_onPage (h : nav.Oriented) (hp : p ∈ nav.pages) :
    Ensures P (nav.previousPage p.id) fun l s => l = .nowhere ∨ nav.OnPage s l := by
  refine .bind (preserves_around p.id).keeps fun _ => .bind (h.stepBack_onPage hp) fun o => ?_
  split
  · exact .pure fun _ hs => .inr (hs _ rfl)
  · refine .bind (h.previousInOrder_ahead hp) fun o => .given (fun _ hs => hs) fun ho => ?_
    exact (h.arriveBackWithin_onPage _ o ho.known).mono (fun _ _ => trivial) fun _ _ hl => hl

end Oriented

end Navigator

end Questionnaire
