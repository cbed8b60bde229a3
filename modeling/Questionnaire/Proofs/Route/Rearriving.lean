import Questionnaire.Proofs.Route.Iterating

/-!
# Arriving at the same page again

A respondent who arrives at a page a second time, with the session that the first arrival left, gets
where the first one led, and the session stays as it is, with one exception
(`Navigator.arrive_again_iff`). An open plan may have stale items only from its cursor on. The first
arrival passes over them, finds the plan complete and goes on behind the battery; the plan ran out
(`Session.RunsOut`). The second arrival finds a plan that was complete before, and a battery that is
done shows its last item to those who come back to it. So it stays on the start page of that
battery, for an item that is stale.

The proof follows the turns of the search. A turn leaves one plan behind, that of the battery that
starts on the page (`Navigator.Entered`), and what comes after leaves that plan alone. So when the
turn is repeated it meets that plan, and comes to the same end unless the plan ran out
(`Oriented.arrivalTurn_again`). The search as a whole is repeated turn by turn
(`Oriented.arriveWithin_recurs`).
-/

namespace Questionnaire

open Flow

/-! ## Plans that run out -/

namespace Session

/-- A session whose plans have integers for cursors. -/
def WholeCursors (s : Session) : Prop := ∀ id p, s.plan? id = some p → ∃ z : Int, p.cursor = .int z

/-- A plan that is open in one session is complete in another one. -/
def RunsOut (s t : Session) : Prop :=
  ∃ id p q, s.plan? id = some p ∧ p.isComplete = .ok false ∧ t.plan? id = some q ∧
    q.isComplete = .ok true

variable {s t : Session} {id : Id} {q : LoopPlan} {z : Int}

theorem WholeCursors.setPlan (h : s.WholeCursors) (hq : q.cursor = .int z) :
    (s.setPlan id q).WholeCursors := by
  intro j p hp
  rw [plan?_setPlan] at hp
  split at hp
  · cases hp
    exact ⟨z, hq⟩
  · exact h j p hp

theorem not_runsOut_self (s : Session) : ¬s.RunsOut s := by
  rintro ⟨id, p, q, hp, hopen, hq, hdone⟩
  cases hp.symm.trans hq
  cases hopen.symm.trans hdone

/-- A plan that is put in its place and goes on to stand there does not matter to what runs out, if
it was complete before exactly if it is now. -/
theorem runsOut_setPlan (ht : t.plan? id = some q)
    (hsame : ∀ p, s.plan? id = some p → p.isComplete = q.isComplete) :
    (s.setPlan id q).RunsOut t ↔ s.RunsOut t := by
  have hat : ∀ {u : Session} {j : Id}, j.agrees id = true → u.plan? j = u.plan? id :=
    fun h => Register.get?_congr _ h
  constructor
  · rintro ⟨j, p, q', hp, hopen, hq', hdone⟩
    rw [plan?_setPlan] at hp
    split at hp
    · next hagree =>
      cases hp
      cases (hat hagree ▸ ht : t.plan? j = some q).symm.trans hq'
      cases hopen.symm.trans hdone
    · exact ⟨j, p, q', hp, hopen, hq', hdone⟩
  · rintro ⟨j, p, q', hp, hopen, hq', hdone⟩
    cases hagree : j.agrees id with
    | true =>
      cases (hat hagree ▸ ht : t.plan? j = some q).symm.trans hq'
      rw [hat hagree] at hp
      cases hopen.symm.trans ((hsame p hp).trans hdone)
    | false => exact ⟨j, p, q', by rw [plan?_setPlan, hagree]; exact hp, hopen, hq', hdone⟩

end Session

namespace Navigator

variable {nav : Navigator} {P : Session → Prop} {s t u : Session} {d : Desk} {p : Page}
  {b : Battery} {plan q : LoopPlan} {z : Int} {fault : Option Fault}

/-! ## What the answers decide -/

theorem constant_around (id : Id) : Constant P (nav.around id) := by
  refine .bind .demandKeys fun _ => ?_
  split
  · exact .pure
  · exact .throw

theorem constant_isShown (s : Session) (id : Id) : Constant s.SameData (nav.isShown id) := by
  refine .ite .pure <| .bind (constant_around id) fun x => .bind_session s (fun t ht => ?_) ?_
  · rw [ht.context]
  · exact .bind .logAll fun _ => .ofResult

theorem constant_firstShown (s : Session) : ∀ l : List Page,
    Constant s.SameData (nav.firstShown l)
  | [] => .pure
  | p :: r => .bind (constant_isShown s p.id) fun _ => .ite .pure (constant_firstShown s r)

theorem constant_nextInOrder (s : Session) (id : Id) : Constant s.SameData (nav.nextInOrder id) :=
  .bind (constant_around id) fun _ => constant_firstShown s _

theorem constant_iterationOf (s : Session) (id : Id) : Constant (· = s) (nav.iterationOf id) := by
  refine .bind (.bind .demandKeys fun _ => .pure) fun o => ?_
  split
  · exact .pure
  · refine .bind (.bind .demandKeys fun _ => ?_) fun o => ?_
    · exact .bind_session s (fun t ht => by rw [ht]) .pure
    split
    · exact .pure
    · exact .ofResult

/-! ## One turn -/

/-- What a turn finds out once the plan of the battery that starts on the page is at hand. -/
def settle (nav : Navigator) (b : Battery) (id : Id) (p : LoopPlan) (wasComplete : Bool) :
    Flow Turn := do
  if !p.items.isEmpty && (wasComplete || !(← Flow.ofResult p.isComplete)) then
    pure (.lands (.on id (← Flow.ofResult p.iteration)))
  else
    Flow.log (.batterySkipped b.id)
    pure (.goesOn (← nav.nextInOrder b.endPageId))

theorem constant_settle (s : Session) (b : Battery) (id : Id) (q : LoopPlan) (wasComplete : Bool) :
    Constant s.SameData (nav.settle b id q wasComplete) := by
  refine .bind .ofResult fun _ => .ite (.bind .ofResult fun _ => .pure) ?_
  exact .bind .log fun _ => .bind (constant_nextInOrder s _) fun _ => .pure

/-- Without items it does not matter whether the plan was complete before. -/
theorem settle_of_items_nil (hnil : q.items = []) (id : Id) (w w' : Bool) :
    nav.settle b id q w = nav.settle b id q w' := by
  simp only [settle, hnil, List.isEmpty_nil, Bool.not_true, Bool.false_and]

/-- A plan that is complete now and was not before sends the search on. -/
theorem settle_goesOn {id : Id} (hdone : q.isComplete = .ok true) :
    Ensures P (nav.settle b id q false) fun t _ => ∀ l, t ≠ .lands l := by
  refine .bind_ofOk hdone <| .ite (fun hc => by simp at hc) fun _ => ?_
  exact .bind Keeps.log fun _ => .bind (preserves_nextInOrder _).keeps fun _ =>
    .pure fun _ _ => nofun

/-- How a battery is entered in a session, by the plan that it is left with: the plan is made, or it
was complete before, or its cursor is moved as far as it gets. -/
inductive Entered (nav : Navigator) (b : Battery) (s : Session) :
    LoopPlan → Except Fault (LoopPlan × Bool) → Prop
  | made {q : LoopPlan} : s.plan? b.id = none → b.Fits nav.survey s.responses q →
      q.cursor = .int 0 → Entered nav b s q (.ok (q, false))
  | done {q : LoopPlan} {z : Int} : s.plan? b.id = some q → q.cursor = .int z →
      q.isComplete = .ok true → Entered nav b s q (.ok (q, true))
  | moved {p q : LoopPlan} {z : Int} (fault : Option Fault) : s.plan? b.id = some p →
      p.isComplete = .ok false → q.cursor = .int z → (q.items = [] → fault ≠ none) →
      q.staleKey (Planning.liveKeys b nav.survey s.responses) (.int z) =
        fault.elim (.ok none) .error →
      Entered nav b s q (fault.elim (.ok (q, false)) .error)

/-- How a turn on a page comes to an end in a session, which session it leaves, and what becomes of
it when it is repeated later. On a page on which no battery starts it ends the search and leaves
the session as it was. Otherwise it leaves a plan. It is settled if it comes to the same end
wherever that plan is met; if the plan ran out, the search goes on at first, and when the turn is
repeated the respondent lands on the page. -/
inductive Again (nav : Navigator) (p : Page) (s : Session) : Except Fault Turn → Session → Prop
  | free {o : Except Fault Turn} : (∀ next, o ≠ .ok (.goesOn next)) →
      Gives s (nav.arrivalTurn p.id) o s → Again nav p s o s
  | settled {b : Battery} {q : LoopPlan} {z : Int} {o : Except Fault Turn} :
      nav.roles.ownerOf? p.id = some (b, .start) → q.cursor = .int z →
      (∀ plan, s.plan? b.id = some plan → plan.isComplete = q.isComplete) →
      (∀ u, s.SameData u → u.plan? b.id = some q → Gives u (nav.arrivalTurn p.id) o u) →
      Again nav p s o (s.setPlan b.id q)
  | ranOut {b : Battery} {plan q : LoopPlan} {z : Int} {i : Option Iteration}
      {o : Except Fault Turn} :
      nav.roles.ownerOf? p.id = some (b, .start) → q.cursor = .int z →
      s.plan? b.id = some plan → plan.isComplete = .ok false → q.isComplete = .ok true →
      (∀ l, o ≠ .ok (.lands l)) →
      (∀ u, s.SameData u → u.plan? b.id = some q →
        Gives u (nav.arrivalTurn p.id) (.ok (.lands (.on p.id i))) u) →
      Again nav p s o (s.setPlan b.id q)

namespace Oriented

/-! ## Entering a battery again -/

section Entering
variable (h : nav.Oriented) (hb : b ∈ nav.survey.batteries)
include h hb

theorem gives_enter_of_done (hplan : s.plan? b.id = some plan)
    (hdone : plan.isComplete = .ok true) :
    Gives s (nav.enter b) (.ok (plan, true)) s := by
  refine .bind (h.gives_planOf hb) ?_
  rw [hplan]
  exact .bind (.ofOk hdone) <| .bind (gives_skipStale_of_done hdone) .pure

/-- A battery whose plan is open is entered with the cursor as far as it gets. -/
theorem gives_enter_of_open (hplan : s.plan? b.id = some plan) (hopen : plan.isComplete = .ok false)
    {passage : Passage}
    (hpassage : plan.passage (Planning.liveKeys b nav.survey s.responses) = passage) :
    Gives s (nav.enter b)
      (passage.fault.elim (.ok ({ plan with cursor := passage.cursor }, false)) .error)
      (s.setPlan b.id { plan with cursor := passage.cursor }) := by
  have hskip := h.gives_skipStale_of_open (s := s) hb hopen
  simp only [hpassage] at hskip
  refine .bind (h.gives_planOf hb) ?_
  rw [hplan]
  refine .bind (.ofOk hopen) ?_
  cases hfault : passage.fault with
  | none =>
    rw [hfault] at hskip
    exact .bind hskip .pure
  | some e =>
    rw [hfault] at hskip
    exact hskip.bind_error

/-- A battery whose plan cannot move on is entered again as it was left. -/
theorem gives_enter_of_stopped (hplan : s.plan? b.id = some plan) (hz : plan.cursor = .int z)
    (hopen : plan.isComplete = .ok false)
    (hstop : plan.staleKey (Planning.liveKeys b nav.survey s.responses) (.int z) =
      fault.elim (.ok none) .error) :
    Gives s (nav.enter b) (fault.elim (.ok (plan, false)) .error) s := by
  have hagain := h.gives_enter_of_open hb hplan hopen (LoopPlan.passage_of_stopped hz hopen hstop)
  rwa [Session.setPlan_of_plan? hplan] at hagain

/-- A battery with a new plan is entered again for its first item. -/
theorem gives_enter_of_fits (hplan : s.plan? b.id = some plan)
    (hfits : b.Fits nav.survey s.responses plan) (hcursor : plan.cursor = .int 0) :
    Gives s (nav.enter b) (.ok (plan, decide (plan.items.length ≤ 0))) s := by
  have hc : plan.CursorAt 0 := ⟨hcursor, Nat.zero_le _⟩
  have hkeys : ∀ item ∈ plan.items, item.key.isCompound = false := fun item hitem =>
    Value.isCompound_of_isText (h.typed.isText_key hb (hfits.items.subset hitem))
  have hlive := (LoopPlan.firstLive_of_live fun item (hitem : plan.items[0]? = some item) =>
    hfits.isAmong (List.mem_of_getElem? hitem)).1
  have hagain := h.gives_enter_again hb hplan hc hkeys
  simp only [hlive, ← hc.eq_moved, Session.setPlan_of_plan? hplan] at hagain
  exact hagain

/-- A battery is entered in one of three ways. -/
theorem exists_entered (hs : s.WholeCursors) (hd : d.session = s) : ∃ q r d',
    (nav.enter b).perform d = (r, d') ∧ d'.session = s.setPlan b.id q ∧ nav.Entered b s q r := by
  cases hplan : s.plan? b.id with
  | none =>
    obtain ⟨⟨q, w⟩, d', hperform, ⟨hfits, hcursor, rfl⟩, hsession⟩ :=
      h.yields_enter_new hb hplan d hd
    exact ⟨q, _, d', hperform, hsession, .made hplan hfits hcursor⟩
  | some plan =>
    obtain ⟨z, hz⟩ := hs _ _ hplan
    cases hcomplete : decide ((plan.items.length : Int) ≤ z) with
    | true =>
      have hdone : plan.isComplete = .ok true := hcomplete ▸ LoopPlan.isComplete_of_int hz
      obtain ⟨events, hperform⟩ := h.gives_enter_of_done hb hplan hdone d hd
      exact ⟨plan, _, _, hperform, (Session.setPlan_of_plan? hplan).symm, .done hplan hz hdone⟩
    | false =>
      have hopen : plan.isComplete = .ok false := hcomplete ▸ LoopPlan.isComplete_of_int hz
      obtain ⟨n, hn, hstop⟩ :=
        LoopPlan.passage_stops hz (Planning.liveKeys b nav.survey s.responses)
      obtain ⟨events, hperform⟩ := h.gives_enter_of_open hb hplan hopen rfl d hd
      refine ⟨_, _, _, hperform, rfl, .moved _ hplan hopen hn (fun hnil => ?_) hstop⟩
      have hz' : z < 0 := by simpa [show plan.items = [] from hnil] using hcomplete
      have hfault : plan.passage (Planning.liveKeys b nav.survey s.responses) =
          ⟨plan.cursor, [], some .noSuchItem⟩ :=
        LoopPlan.passage_of_stopped hz hopen (LoopPlan.staleKey_of_items_nil hnil hz' _)
      rw [hfault]
      exact Option.some_ne_none _

end Entering

/-! ## Taking a turn again -/

section Turning
variable (h : nav.Oriented) (hp : p ∈ nav.pages)
include h hp

/-- A turn on a page on which no battery starts ends the search and changes nothing. -/
theorem arrivalTurn_again_free (hrole : ∀ b, nav.roles.ownerOf? p.id ≠ some (b, .start)) :
    ∃ o, (∀ next, o ≠ .ok (.goesOn next)) ∧ Gives s (nav.arrivalTurn p.id) o s := by
  obtain ⟨r, hr⟩ : Constant (· = s) (nav.iterationOf p.id) := constant_iterationOf s p.id
  have hgives : ∀ o, Gives s (do pure (Turn.lands (.on p.id (← nav.iterationOf p.id)))) o s →
      Gives s (nav.arrivalTurn p.id) o s := by
    refine fun o ho => .bind (h.gives_roleOf hp) ?_
    split
    · next b hb => exact absurd hb (hrole b)
    · exact ho
  cases r with
  | error e => exact ⟨.error e, nofun, hgives _ (hr s rfl).bind_error⟩
  | ok i => exact ⟨.ok (.lands (.on p.id i)), nofun, hgives _ (.bind (hr s rfl) .pure)⟩

variable (hrole : nav.roles.ownerOf? p.id = some (b, .start))
include hrole

theorem gives_arrivalTurn {x : LoopPlan × Bool} {o : Except Fault Turn}
    (henter : Gives u (nav.enter b) (.ok x) u) (hsettle : Gives u (nav.settle b p.id x.1 x.2) o u) :
    Gives u (nav.arrivalTurn p.id) o u := by
  refine .bind (h.gives_roleOf hp) ?_
  rw [hrole]
  exact .bind henter hsettle

theorem gives_arrivalTurn_of_error {e : Fault} (henter : Gives u (nav.enter b) (.error e) u) :
    Gives u (nav.arrivalTurn p.id) (.error e) u := by
  refine .bind (h.gives_roleOf hp) ?_
  rw [hrole]
  exact henter.bind_error

/-- The first time, a turn enters the battery and settles what that comes to. -/
theorem exists_arrivalTurn (hs : s.WholeCursors) (hd : d.session = s) : ∃ q r o d',
    (nav.arrivalTurn p.id).perform d = (o, d') ∧ d'.session = s.setPlan b.id q ∧
      nav.Entered b s q r ∧ (∀ e, r = .error e → o = .error e) ∧
      ∀ x, r = .ok x → ∀ u, s.SameData u → Gives u (nav.settle b p.id x.1 x.2) o u := by
  have hb := h.mem_batteries hrole
  obtain ⟨events, hperform⟩ := h.gives_roleOf hp d hd
  obtain ⟨q, r, d₁, henter, hsession, hentered⟩ :=
    h.exists_entered hb hs (d := ⟨s, d.generator, events⟩) rfl
  have hturn : (nav.arrivalTurn p.id).perform d =
      (nav.enter b >>= fun x => nav.settle b p.id x.1 x.2).perform ⟨s, d.generator, events⟩ := by
    rw [arrivalTurn, perform_bind, hperform]
    dsimp only
    rw [hrole]
    rfl
  rw [perform_bind, henter] at hturn
  cases r with
  | error e =>
    refine ⟨q, _, _, d₁, hturn, hsession, hentered, fun _ he => ?_, fun x hx => ?_⟩
    · cases he
      rfl
    · cases hx
  | ok x =>
    obtain ⟨o, ho⟩ : Constant s.SameData (nav.settle b p.id x.1 x.2) := constant_settle s b _ _ _
    have hdata : s.SameData d₁.session := hsession ▸ (Session.SameData.refl s).setPlan _ _
    obtain ⟨events', hsettle⟩ := ho _ hdata d₁ rfl
    refine ⟨q, _, o, _, hturn.trans hsettle, hsession, hentered, fun _ he => ?_, fun y hy => ?_⟩
    · cases he
    · cases hy
      exact ho

/-- A plan that is complete and has items is shown to those who come back to it. -/
theorem gives_arrivalTurn_of_done {c : Nat} (hplan : u.plan? b.id = some q) (hc : q.cursor = .int c)
    (hdone : q.isComplete = .ok true) {n : Nat} (hn : n = min c (q.items.length - 1))
    (hlt : n < q.items.length) :
    Gives u (nav.arrivalTurn p.id) (.ok (.lands (.on p.id
      (some ⟨q.batteryId, q.items[n], .int n, .int q.items.length⟩)))) u := by
  have hne : q.items ≠ [] := List.ne_nil_of_length_pos (Nat.zero_lt_of_lt hlt)
  have henter := h.gives_enter_of_done (h.mem_batteries hrole) hplan hdone
  refine h.gives_arrivalTurn hp hrole henter <| .bind (.ofOk hdone) ?_
  rw [if_pos (by simpa using hne)]
  exact .bind (.ofOk (LoopPlan.iteration_of_cursor hc hn hlt)) .pure

/-! ## What a turn left behind -/

variable {o : Except Fault Turn}

/-- A new plan is met again as it was made. -/
theorem again_of_made (hnone : s.plan? b.id = none) (hfits : b.Fits nav.survey s.responses q)
    (hcursor : q.cursor = .int 0)
    (hsettle : ∀ u, s.SameData u → Gives u (nav.settle b p.id q false) o u) :
    nav.Again p s o (s.setPlan b.id q) := by
  refine .settled hrole hcursor (fun plan hplan => ?_) fun u hu hplan => ?_
  · cases hnone.symm.trans hplan
  · have henter :=
      h.gives_enter_of_fits (h.mem_batteries hrole) hplan (hu.responses ▸ hfits) hcursor
    refine h.gives_arrivalTurn hp hrole henter ?_
    by_cases hnil : q.items = []
    · exact settle_of_items_nil hnil p.id _ false ▸ hsettle u hu
    · have hpos := List.length_pos_iff.2 hnil
      rw [decide_eq_false (by omega)]
      exact hsettle u hu

/-- A plan that was complete is met again as it was. -/
theorem again_of_done (hplan : s.plan? b.id = some q) (hz : q.cursor = .int z)
    (hdone : q.isComplete = .ok true)
    (hsettle : ∀ u, s.SameData u → Gives u (nav.settle b p.id q true) o u) :
    nav.Again p s o (s.setPlan b.id q) := by
  refine .settled hrole hz (fun plan hplan' => ?_) fun u hu hplan' => ?_
  · cases hplan.symm.trans hplan'
    rfl
  · have henter := h.gives_enter_of_done (h.mem_batteries hrole) hplan' hdone
    exact h.gives_arrivalTurn hp hrole henter (hsettle u hu)

/-- What stopped the cursor of a plan that is open still stops it again. -/
theorem again_of_open (hplan : s.plan? b.id = some plan) (hopen : plan.isComplete = .ok false)
    (hz : q.cursor = .int z) (hstill : q.isComplete = .ok false)
    (hstop : q.staleKey (Planning.liveKeys b nav.survey s.responses) (.int z) =
      fault.elim (.ok none) .error)
    (herror : ∀ e, fault = some e → o = .error e)
    (hsettle : fault = none → ∀ u, s.SameData u → Gives u (nav.settle b p.id q false) o u) :
    nav.Again p s o (s.setPlan b.id q) := by
  refine .settled hrole hz (fun plan' hplan' => ?_) fun u hu hplan' => ?_
  · cases hplan.symm.trans hplan'
    rw [hopen, hstill]
  · have henter := h.gives_enter_of_stopped (h.mem_batteries hrole) hplan' hz hstill
      (hu.responses ▸ hstop)
    cases fault with
    | none => exact h.gives_arrivalTurn hp hrole henter (hsettle rfl u hu)
    | some e => exact herror e rfl ▸ h.gives_arrivalTurn_of_error hp hrole henter

/-- A plan whose last items were passed over ran out. -/
theorem again_of_ranOut (hplan : s.plan? b.id = some plan) (hopen : plan.isComplete = .ok false)
    (hz : q.cursor = .int z) (hdone : q.isComplete = .ok true) (hne : q.items ≠ [])
    (hsettle : Gives s (nav.settle b p.id q false) o s) :
    nav.Again p s o (s.setPlan b.id q) := by
  have hpos := List.length_pos_iff.2 hne
  have hle : (q.items.length : Int) ≤ z := by
    rw [LoopPlan.isComplete_of_int hz] at hdone
    simpa using hdone
  obtain ⟨c, rfl⟩ : ∃ c : Nat, z = c := ⟨z.toNat, by omega⟩
  refine .ranOut hrole hz hplan hopen hdone (fun l hl => ?_) fun u _ hplan' =>
    h.gives_arrivalTurn_of_done hp hrole hplan' hz hdone rfl (by omega)
  obtain ⟨events, hperform⟩ := hsettle ⟨s, default, []⟩ rfl
  exact settle_goesOn (P := fun _ => True) hdone _ _ _ trivial (hl ▸ hperform) l rfl

end Turning

/-- A turn comes to the same end when it is repeated, unless the plan of the battery ran out. -/
theorem arrivalTurn_again (h : nav.Oriented) (hp : p ∈ nav.pages) (hs : d.session.WholeCursors)
    {o : Except Fault Turn} {d' : Desk} (hturn : (nav.arrivalTurn p.id).perform d = (o, d')) :
    nav.Again p d.session o d'.session := by
  by_cases hstart : ∃ b, nav.roles.ownerOf? p.id = some (b, .start)
  · obtain ⟨b, hrole⟩ := hstart
    obtain ⟨q, r, o, d', hperform, hsession, hentered, herror, hok⟩ :=
      h.exists_arrivalTurn hp hrole hs rfl
    cases hperform.symm.trans hturn
    rw [hsession]
    cases hentered with
    | made hnone hfits hcursor => exact h.again_of_made hp hrole hnone hfits hcursor (hok _ rfl)
    | done hplan hz hdone => exact h.again_of_done hp hrole hplan hz hdone (hok _ rfl)
    | moved fault hplan hopen hz hnil hstop =>
      cases hcomplete : q.isComplete with
      | error e => cases (LoopPlan.isComplete_of_int hz).symm.trans hcomplete
      | ok done =>
        cases done with
        | false =>
          refine h.again_of_open hp hrole hplan hopen hz hcomplete hstop (fun e he => ?_)
            fun hnone => ?_
          · exact herror e (by rw [he]; rfl)
          · exact hok (q, false) (by rw [hnone]; rfl)
        | true =>
          -- Behind the last item nothing stops the cursor.
          have hnone : fault = none := by
            rw [LoopPlan.staleKey, ← hz, show q.isCompleteAt q.cursor = .ok true from hcomplete]
              at hstop
            cases fault with
            | none => rfl
            | some e => cases hstop
          subst hnone
          exact h.again_of_ranOut hp hrole hplan hopen hz hcomplete (fun hitems => hnil hitems rfl)
            (hok _ rfl _ (.refl _))
  · obtain ⟨o, hends, hgives⟩ := h.arrivalTurn_again_free hp fun b hb => hstart ⟨b, hb⟩
    obtain ⟨events, hperform⟩ := hgives d rfl
    cases hperform.symm.trans hturn
    exact .free hends hgives

end Oriented

/-! ## The search as a whole -/

theorem Again.wholeCursors {o : Except Fault Turn} (h : nav.Again p s o t) (hs : s.WholeCursors) :
    t.WholeCursors := by
  cases h with
  | free => exact hs
  | settled _ hz => exact hs.setPlan hz
  | ranOut _ hz => exact hs.setPlan hz

/-- How work that led from one session to another comes to an end when it is done again. It leaves
the session as it is. If no plan ran out the first time, it comes to the end that it came to then;
otherwise it has another result. -/
structure Recurs (s : Session) (f : Flow Landing) (r : Except Fault Landing) (t : Session) :
    Prop where
  same : ¬s.RunsOut t → Gives t f r t
  other : s.RunsOut t → ∃ l, Gives t f (.ok l) t ∧ r ≠ .ok l

/-- Work that changes nothing comes to the same end again. -/
theorem Recurs.of_gives {f : Flow Landing} {r : Except Fault Landing} (h : Gives s f r s) :
    Recurs s f r s :=
  ⟨fun _ => h, fun hout => absurd hout s.not_runsOut_self⟩

theorem Recurs.after {f : Flow Turn} {k : Turn → Flow Landing} {x : Turn}
    {r : Except Fault Landing} (hf : Gives t f (.ok x) t) (h : Recurs s (k x) r t) :
    Recurs s (f >>= k) r t :=
  ⟨fun hnot => hf.bind (h.same hnot), fun hout =>
    (h.other hout).imp fun _ hl => ⟨hf.bind hl.1, hl.2⟩⟩

/-- A search recurs if what comes after its first turn does: the plan that the turn left is met
again, and where it ran out the respondent lands on the page and not behind it. -/
theorem Again.recurs {o : Except Fault Turn} {g : Option Id → Flow Landing}
    {r : Except Fault Landing}
    (hagain : nav.Again p s o t)
    (hends : (∀ next, o ≠ .ok (.goesOn next)) → u = t)
    (hkept : ∀ b q, nav.roles.ownerOf? p.id = some (b, .start) → t.plan? b.id = some q →
      t.SameData u ∧ u.plan? b.id = some q)
    (hbehind : (∀ l, o ≠ .ok (.lands l)) → ∀ i, r ≠ .ok (.on p.id i))
    (hrest : Gives u (nav.arrivalTurn p.id) o u →
      Recurs t (nav.arrivalTurn p.id >>= Turn.follow g) r u) :
    Recurs s (nav.arrivalTurn p.id >>= Turn.follow g) r u := by
  cases hagain with
  | free hno hgives =>
    cases hends hno
    exact hrest hgives
  | @settled b q z _ hrole _ hsame hgives =>
    obtain ⟨hdata, hplan⟩ := hkept b q hrole (s.plan?_setPlan_self _ _)
    obtain ⟨hrecurs, hother⟩ := hrest (hgives u ⟨hdata.responses, hdata.embedded⟩ hplan)
    rw [Session.runsOut_setPlan hplan hsame] at hrecurs hother
    exact ⟨hrecurs, hother⟩
  | @ranOut b plan q z i _ hrole _ hold hopen hdone hno hgives =>
    obtain ⟨hdata, hplan⟩ := hkept b q hrole (s.plan?_setPlan_self _ _)
    exact ⟨fun hnot => absurd ⟨b.id, plan, q, hold, hopen, hplan, hdone⟩ hnot, fun _ =>
      ⟨.on p.id i, (hgives u ⟨hdata.responses, hdata.embedded⟩ hplan).bind .pure, hbehind hno i⟩⟩

namespace Oriented

/-- A search that is repeated on the session that it left. -/
theorem arriveWithin_recurs (h : nav.Oriented) (hd : nav.survey.Distinct) :
    ∀ (fuel : Nat) {o : Option Id} {d d' : Desk} {r : Except Fault Landing}, nav.Known o →
      d.session.WholeCursors → (nav.arriveWithin fuel o).perform d = (r, d') →
      Recurs d.session (nav.arriveWithin fuel o) r d'.session
  | fuel, none, d, d', r, _, _, hperform => by
    rw [arriveWithin_none] at hperform ⊢
    cases hperform
    exact .of_gives .pure
  | 0, some id, d, d', r, _, _, hperform => by
    cases hperform
    exact .of_gives .throw
  | fuel + 1, some id, d, d', r, ho, hs, hperform => by
    obtain ⟨p, hp, rfl⟩ := ho.mem
    rw [arriveWithin_succ] at hperform ⊢
    rcases hturn : (nav.arrivalTurn p.id).perform d with ⟨e | x, d₁⟩
    · have hagain := h.arrivalTurn_again hp hs hturn
      rw [perform_bind, hturn] at hperform
      cases hperform
      exact hagain.recurs (fun _ => rfl) (fun _ _ _ hplan => ⟨.refl _, hplan⟩) (fun _ _ => nofun)
        fun hgives => .of_gives hgives.bind_error
    · have hagain := h.arrivalTurn_again hp hs hturn
      rw [perform_bind, hturn] at hperform
      have hlater := h.arrivalTurn_later hp d x d₁ trivial hturn
      cases x with
      | lands l =>
        cases hperform
        exact hagain.recurs (fun _ => rfl) (fun _ _ _ hplan => ⟨.refl _, hplan⟩)
          (fun hno => absurd rfl (hno l)) fun hgives => .after hgives (.of_gives .pure)
      | goesOn next =>
        have hbehind := hlater next rfl
        refine hagain.recurs (fun hno => absurd rfl (hno next)) (fun b q hrole hplan => ?_)
          (fun _ i hi => ?_) fun hgives => .after hgives ?_
        · have hkept := h.arriveWithin_leaves_alone hd hp hrole fuel hbehind d₁ ⟨.refl _, hplan⟩
          have hperform : (nav.arriveWithin fuel next).perform d₁ = (r, d') := hperform
          rwa [hperform] at hkept
        · subst hi
          have hfar := h.arriveWithin_behind fuel next hbehind d₁ _ d' trivial hperform
          obtain ⟨q, hq, hqid, hlt⟩ := hfar p.id (h.inOrder.given?_id hp)
          cases h.inOrder.eq_of_id hq hp hqid
          omega
        · exact arriveWithin_recurs h hd fuel hbehind.known (hagain.wholeCursors hs) hperform

end Oriented

/-- Arriving is idempotent where no plan runs out. Take a survey whose parts have the declared
types, and whose page ids, page indexes and battery ids are distinct, any session whose plans have
integers for cursors, any page of the survey and any generators. Arriving at the page a second time,
with the session that the first arrival left, comes to the same end and leaves the session as it is,
exactly if the first arrival did not pass over the last items of an open plan. -/
theorem arrive_again_iff {survey : Survey} (htyped : survey.Typed) (hdistinct : survey.Distinct)
    (skipHidden quiet : Bool) {d : Desk} (hs : d.session.WholeCursors) {p : Page}
    (hp : p ∈ survey.pages) :
    let nav := ofSurvey survey skipHidden quiet
    let first := (nav.arrive (some p.id)).perform d
    (∀ e : Desk, e.session = first.2.session → ((nav.arrive (some p.id)).perform e).1 = first.1 ∧
      ((nav.arrive (some p.id)).perform e).2.session = e.session) ↔
    ¬d.session.RunsOut first.2.session := by
  intro nav first
  have h : nav.Oriented := .ofSurvey htyped hdistinct.pageIds hdistinct.pageIndexes skipHidden quiet
  have hknown : nav.Known (some p.id) := fun id hid =>
    ⟨p, (sortedBy_perm _ _).mem_iff.2 hp, Option.some.inj hid⟩
  have hrecurs := h.arriveWithin_recurs hdistinct _ hknown hs (rfl : _ = first)
  constructor
  · intro hsame hout
    obtain ⟨l, hgives, hne⟩ := hrecurs.other hout
    obtain ⟨events, hperform⟩ := hgives first.2 rfl
    have hfirst := (hsame first.2 rfl).1
    exact hne (hfirst.symm.trans (congrArg Prod.fst hperform))
  · intro hnot e he
    obtain ⟨events, hperform⟩ := hrecurs.same hnot e he
    have hperform : (nav.arrive (some p.id)).perform e = _ := hperform
    rw [hperform]
    exact ⟨rfl, he.symm⟩

end Navigator

namespace Sample.BrandTracker

theorem wholeCursors_onBrand (c : Nat) (values : List String) :
    (onBrand c values).WholeCursors := by
  refine Session.WholeCursors.setPlan (z := c) (fun id p hp => ?_) rfl
  have hnew : (hearing values).plan? id = none := Register.get?_empty id
  cases hnew.symm.trans hp

/-- The respondent on the pages about the last of three brands, which is taken back. The pages about
a store were gone through before. -/
def backAtBrands : Session :=
  (onBrand 2 ["nike", "puma"]).setPlan (.text "stores") ⟨.text "stores",
    [Planning.rowItem (store "oxford_st" "Oxford Street" "London" true 0)], .int 1⟩

/-- The plan that is left after an arrival with the cursor on the second of three brands, which is
taken back. -/
theorem plan?_arrived :
    (((Navigator.ofSurvey (survey (.int 2)) true false).arrive (some (pages[1]).id)).perform
      ⟨onBrand 1 ["nike", "adidas"], .ofScript [], []⟩).2.session.plan? brands.id =
        some (allBrands 2) := by
  rw [ofSurvey_survey]
  decide +kernel

end Sample.BrandTracker

open Sample BrandTracker in
/-- The second of three brands is taken back, so both arrivals lead to the third one. -/
theorem Navigator.arrive_again_brandTracker :
    let nav := ofSurvey (BrandTracker.survey (.int 2)) true false
    let first := (nav.arrive (some (BrandTracker.pages[1]).id)).perform
      ⟨onBrand 1 ["nike", "adidas"], .ofScript [], []⟩
    ∀ e : Desk, e.session = first.2.session →
      ((nav.arrive (some (BrandTracker.pages[1]).id)).perform e).1 = first.1 ∧
        ((nav.arrive (some (BrandTracker.pages[1]).id)).perform e).2.session = e.session := by
  have hpage : BrandTracker.pages[1] ∈ (BrandTracker.survey (.int 2)).pages := List.getElem_mem _
  have hiff := arrive_again_iff typed distinct true false
    (d := ⟨onBrand 1 ["nike", "adidas"], .ofScript [], []⟩)
    (wholeCursors_onBrand 1 ["nike", "adidas"]) hpage
  dsimp only at hiff ⊢
  refine hiff.2 ?_
  rintro ⟨id, p, q, hp, hopen, hq, hdone⟩
  rw [onBrand, Session.plan?_setPlan] at hp
  split at hp
  · next hagree =>
    cases ((Register.get?_congr _ hagree).trans plan?_arrived).symm.trans hq
    revert hdone
    decide +kernel
  · have hnew : (hearing ["nike", "adidas"]).plan? id = none := Register.get?_empty id
    cases hnew.symm.trans hp

open Sample BrandTracker in
/-- With the third of three brands taken back, the respondent who arrives on its pages is sent on to
the stores, and the one who arrives there again is shown the pages for it. -/
theorem Navigator.arrive_again_shows_stale :
    let nav := ofSurvey (BrandTracker.survey (.int 2)) true false
    let d : Desk := ⟨backAtBrands, .ofScript [], []⟩
    let first := (nav.arrive (some brands.startPageId)).perform d
    let second := (nav.arrive (some brands.startPageId)).perform first.2
    first.1 = .ok (.on (.text "p_store_visit") (some ⟨.text "stores",
      Planning.rowItem (store "oxford_st" "Oxford Street" "London" true 0), .int 0, .int 1⟩)) ∧
    ∃ item, second.1 =
        .ok (.on brands.startPageId (some ⟨brands.id, item, .int 2, .int 3⟩)) ∧
      item.key = .text "adidas" ∧
      item.key.isAmong (Planning.liveKeys brands nav.survey d.session.responses) = false := by
  intro nav d first second
  have hnav : nav = navigator := ofSurvey_survey
  have hfirst : first = (navigator.arrive (some brands.startPageId)).perform d := by rw [← hnav]
  have hsecond : second = (navigator.arrive (some brands.startPageId)).perform first.2 := by
    rw [← hnav]
  rw [hsecond, hfirst]
  exact ⟨by decide +kernel, (allBrands 2).items[2], by decide +kernel, by decide +kernel,
    by decide +kernel⟩

end Questionnaire
