import Questionnaire.Proofs.Page.Rendering
import Questionnaire.Proofs.Route.Fitting
import Questionnaire.Proofs.Route.Roles
import Questionnaire.Route.Navigator

/-!
# What navigation keeps

Navigation reads the session, makes plans for batteries that have none, and moves the cursors of
plans; it does nothing else to a session. So it preserves every property of sessions that new plans
and moved cursors respect, also where it fails and has changed what it had changed by then.

How much a property has to respect depends on the work. Arriving at pages makes plans and passes
over stale items (`ArrivalLaw`). Leaving pages moves cursors among the items, and back only in
batteries that are stepped back in (`CursorLaw`). Requests do more to a session, but not to its
plans (`PlanLaw`). There are two such laws for all batteries: all cursors are among the items
(`cursorLaw`), and all plans fit the answers (`fittingLaw`).
-/

namespace Questionnaire

open Flow

/-- Sessions that differ only in where the respondent is and was, in the orders drawn and in how the
survey ended. -/
structure Session.Alike (s t : Session) : Prop where
  id : t.id = s.id
  version : t.version = s.version
  responses : t.responses = s.responses
  embedded : t.embedded = s.embedded
  plans : t.plans = s.plans

/-- A property of sessions that arriving at pages respects: a battery without a plan may be given
one that fits the answers, and a cursor may pass over the items that are stale. -/
structure ArrivalLaw (survey : Survey) (P : Session → Prop) : Prop where
  cursor : ∀ {s b p}, P s → survey.Accepts b → s.plan? b.id = some p → ∃ c, p.CursorAt c
  made : ∀ {s b p}, P s → survey.Accepts b → s.plan? b.id = none →
    b.Fits survey s.responses p → P (s.setPlan b.id p)
  passed : ∀ {s b p} {c n : Nat}, P s → survey.Accepts b → s.plan? b.id = some p →
    p.CursorAt c → (∀ id ∈ Planning.liveKeys b survey s.responses, id.isCompound = false) →
    (p.passage (Planning.liveKeys b survey s.responses)).cursor = .int n → c ≤ n →
    n ≤ p.items.length → P (s.setPlan b.id (p.moved n))

/-- A property of sessions that navigation respects: a cursor may be moved among the items, in some
batteries also back. -/
structure CursorLaw (survey : Survey) (back : Battery → Prop) (P : Session → Prop) : Prop where
  cursor : ∀ {s b p}, P s → survey.Accepts b → s.plan? b.id = some p → ∃ c, p.CursorAt c
  made : ∀ {s b p}, P s → survey.Accepts b → s.plan? b.id = none →
    b.Fits survey s.responses p → P (s.setPlan b.id p)
  moved : ∀ {s b p} {c n : Nat}, P s → survey.Accepts b → s.plan? b.id = some p → p.CursorAt c →
    n ≤ p.items.length → back b ∨ c ≤ n → P (s.setPlan b.id (p.moved n))

theorem CursorLaw.arrival {survey : Survey} {back : Battery → Prop} {P : Session → Prop}
    (law : CursorLaw survey back P) : ArrivalLaw survey P where
  cursor := law.cursor
  made := law.made
  passed hs hb hp hc _ _ hle hlen := law.moved hs hb hp hc hlen (.inr hle)

/-- A property of sessions that only plans and answers matter to and that navigation respects, in
whatever batteries cursors are moved back. -/
structure PlanLaw (survey : Survey) (P : Session → Prop) : Prop
    extends CursorLaw survey (fun _ => True) P where
  same : ∀ {s t}, P s → s.Alike t → P t

/-- A session whose plans have their cursors among their items. -/
def Session.Counted (s : Session) : Prop := ∀ id p, s.plan? id = some p → ∃ c, p.CursorAt c

theorem Session.Counted.setPlan {s : Session} {p : LoopPlan} {c : Nat} (h : s.Counted) (id : Id)
    (hp : p.CursorAt c) : (s.setPlan id p).Counted := by
  intro j q hq
  rw [plan?_setPlan] at hq
  split at hq
  · cases hq
    exact ⟨c, hp⟩
  · exact h j q hq

theorem Session.Counted.dropPlan {s : Session} {id : Id} (h : s.Counted) :
    (s.dropPlan id).Counted := by
  intro j p hp
  rw [plan?_dropPlan] at hp
  split at hp
  · cases hp
  · exact h j p hp

/-- Cursors stay among the items. -/
theorem cursorLaw (survey : Survey) : PlanLaw survey Session.Counted where
  cursor hs _ hp := hs _ _ hp
  made hs _ _ hp := hp.cursor.elim fun _ hc => hs.setPlan _ hc
  moved hs _ _ _ hn _ := hs.setPlan _ (LoopPlan.cursorAt_moved hn)
  same hs h := fun id p hp => hs id p (by rwa [Session.plan?, ← h.plans])

/-- What plans do not matter to is kept along with what a law is about. -/
theorem CursorLaw.beside {survey : Survey} {back : Battery → Prop} {P F : Session → Prop}
    (law : CursorLaw survey back P) (hF : ∀ s id p, F s → F (s.setPlan id p)) :
    CursorLaw survey back fun s => F s ∧ P s where
  cursor hs := law.cursor hs.2
  made hs hb hnone hp := ⟨hF _ _ _ hs.1, law.made hs.2 hb hnone hp⟩
  moved hs hb hp hc hn hback := ⟨hF _ _ _ hs.1, law.moved hs.2 hb hp hc hn hback⟩

/-- The id and the version of a session are kept along with what a law is about. -/
theorem PlanLaw.fixed {survey : Survey} {P : Session → Prop} (law : PlanLaw survey P) (id : Id)
    (version : Value) : PlanLaw survey fun s => (s.id = id ∧ s.version = version) ∧ P s where
  toCursorLaw := law.toCursorLaw.beside fun _ _ _ h => h
  same hs h := ⟨⟨h.id.trans hs.1.1, h.version.trans hs.1.2⟩, law.same hs.2 h⟩

namespace Navigator

/-- A navigator whose batteries with pages are the accepted ones of its survey. -/
def Proper (nav : Navigator) : Prop :=
  ∀ st ∈ nav.roles.stretches, nav.survey.Accepts st.battery

theorem proper_ofSurvey (survey : Survey) (skipHidden quiet : Bool) :
    (ofSurvey survey skipHidden quiet).Proper :=
  fun st hst => ⟨st, hst, rfl⟩

variable {nav : Navigator} {α : Type} {P E : Session → Prop} {Q : α → Session → Prop}
  {back : Battery → Prop} {b : Battery} {p : LoopPlan} {c : Nat} {id : Id}

theorem Proper.accepts_of_roleOf? (hnav : nav.Proper) {role : LoopRole}
    (hb : nav.roles.roleOf? id = some (b, role)) : nav.survey.Accepts b := by
  obtain ⟨v, -, hv⟩ := Option.bind_eq_some_iff.1 hb
  obtain ⟨st, hst, he⟩ := Option.map_eq_some_iff.1 hv
  cases he
  exact hnav st (List.mem_of_find?_eq_some hst)

/-! ## Reading -/

theorem reads_roleOf (id : Id) : (nav.roleOf id).Reads fun _ =>
    (demandKeys [id]).bind fun _ => .ok (nav.roles.roleOf? id) :=
  .bind (.ofResult _) fun _ => .pure _

theorem reads_planOf (id : Id) :
    (planOf id).Reads fun s => (demandKeys [id]).bind fun _ => .ok (s.plan? id) :=
  .bind (.ofResult _) fun _ => .bind .session fun _ => .pure _

theorem preserves_around (id : Id) : Preserves P (nav.around id) := by
  refine .bind .demandKeys fun _ => ?_
  split
  · exact .pure
  · exact .throw

theorem preserves_isShown (id : Id) : Preserves P (nav.isShown id) :=
  .ite .pure <| .bind (preserves_around id) fun _ =>
    .bind .session fun _ => Context.preserves_shows P _ _ _

theorem preserves_firstShown : ∀ l : List Page, Preserves P (nav.firstShown l)
  | [] => .pure
  | p :: r => .bind (preserves_isShown p.id) fun _ => .ite .pure (preserves_firstShown r)

theorem preserves_nextInOrder (id : Id) : Preserves P (nav.nextInOrder id) :=
  .bind (preserves_around id) fun _ => preserves_firstShown _

theorem preserves_previousInOrder (id : Id) : Preserves P (nav.previousInOrder id) :=
  .bind (preserves_around id) fun _ => preserves_firstShown _

/-- Work goes on with the role of a page. -/
theorem bind_roleOf {k : Option (Battery × LoopRole) → Flow α}
    (hk : Ensures P (k (nav.roles.roleOf? id)) Q) : Ensures P (nav.roleOf id >>= k) Q := by
  refine .bind (Q := fun o s => P s ∧ o = nav.roles.roleOf? id) ?_ fun o => ?_
  · exact .bind Keeps.demandKeys fun _ => .pure fun _ h => ⟨h, rfl⟩
  · refine .given (fun _ h => h.2) fun ho => ?_
    rw [ho]
    exact hk.mono (fun _ h => h.1) fun _ _ h => h

/-- Work goes on with the plan that a session has under an id. -/
theorem bind_planOf {k : Option LoopPlan → Flow α}
    (hk : ∀ o, Ensures (fun s => P s ∧ s.plan? id = o) (k o) Q) :
    Ensures P (planOf id >>= k) Q :=
  .bind (.bind Keeps.demandKeys fun _ => .bind .session fun _ =>
    .pure fun _ h => ⟨h.1, congrArg (Session.plan? · id) h.2.symm⟩) hk

/-- A result that is given on a condition is what it is. -/
theorem eq_of_demanded {β : Type} {r : Except Fault Unit} {v w : β}
    (h : (r.bind fun _ => .ok v) = .ok w) : v = w := by
  cases r with
  | error e => cases h
  | ok _ => cases h; rfl

theorem leaves_roleOf {k : Option (Battery × LoopRole) → Flow α} (hE : ∀ s, P s → E s)
    (hk : Leaves P (k (nav.roles.roleOf? id)) E) : Leaves P (nav.roleOf id >>= k) E := by
  refine .bind_reads (reads_roleOf id) hE fun o => ?_
  refine .given (fun _ hs => eq_of_demanded hs.2) fun (ho : nav.roles.roleOf? id = o) => ?_
  rw [← ho]
  exact hk.mono (fun _ hs => hs.1) fun _ hs => hs

theorem leaves_planOf {k : Option LoopPlan → Flow α} (hE : ∀ s, P s → E s)
    (hk : ∀ o, Leaves (fun s => P s ∧ s.plan? id = o) (k o) E) :
    Leaves P (planOf id >>= k) E :=
  .bind_reads (reads_planOf id) hE fun o =>
    (hk o).mono (fun _ hs => ⟨hs.1, eq_of_demanded hs.2⟩) fun _ hs => hs

theorem preserves_planOf (id : Id) : Preserves P (planOf id) := .of_reads (reads_planOf id)

theorem preserves_iterationOf (id : Id) : Preserves P (nav.iterationOf id) := by
  refine .bind (.of_reads (reads_roleOf id)) fun o => ?_
  split
  · exact .pure
  · refine .bind (preserves_planOf _) fun o => ?_
    split
    · exact .pure
    · exact .ofResult

theorem preserves_continuesLoop (id : Id) : Preserves P (nav.continuesLoop id) := by
  refine .bind (.of_reads (reads_roleOf id)) fun o => ?_
  split
  · refine .bind (preserves_planOf _) fun o => ?_
    split
    · exact .ofResult
    · exact .pure
  · exact .pure

theorem preserves_arriveBackWithin :
    ∀ (fuel : Nat) (id : Option Id), Preserves P (nav.arriveBackWithin fuel id)
  | 0, none | _ + 1, none => .pure
  | 0, some _ => .throw
  | fuel + 1, some id => by
    have hback : ∀ b : Battery, Preserves P
        (do nav.arriveBackWithin fuel (← nav.previousInOrder b.startPageId)) := fun b =>
      .bind (preserves_previousInOrder _) fun id => preserves_arriveBackWithin fuel id
    refine .bind (.of_reads (reads_roleOf id)) fun o => ?_
    split
    · exact .pure
    · next b _ =>
      refine .bind (preserves_planOf b.id) fun o => ?_
      split
      · exact .ite (hback b) (.bind .ofResult fun _ => .pure)
      · exact hback b

/-- Planning leaves the session alone. -/
theorem preserves_newPlan (survey : Survey) (responses : Register Value) :
    Preserves P (Planning.newPlan b survey responses) := by
  have hlimited : ∀ items : List LoopItem, Preserves P (do
      let items := Planning.limited (← Flow.ofResult (Planning.limit? b)) items
      Flow.log (.planned b.id items.length)
      pure (some ⟨b.id, items, .int 0⟩ : Option LoopPlan)) := fun items =>
    .bind .ofResult fun _ => .bind .log fun _ => .pure
  unfold Planning.newPlan
  refine .bind .logAll fun _ => .bind .ofResult fun _ => .ite (.bind .log fun _ => .pure) ?_
  exact .ite (.bind .drawn hlimited) (.bind .pure hlimited)

theorem preserves_progress (batteryId : Id) : Preserves P (progress batteryId) := by
  refine .bind (preserves_planOf batteryId) fun o => ?_
  split
  · exact .pure
  · exact .ofResult

/-! ## Arriving -/

section Arriving
variable (law : ArrivalLaw nav.survey P)
include law

/-- Passing over stale items moves a cursor, also where it fails at an item. -/
theorem leaves_skipStale (hb : nav.survey.Accepts b) (hc : p.CursorAt c) :
    Leaves (fun s => P s ∧ s.plan? b.id = some p) (nav.skipStale b p) P := by
  refine .bind_ofOk hc.isComplete <| .ite (fun _ => .pure fun _ hs => hs.1) fun _ => ?_
  refine .bind_reads .session (fun _ hs => hs.1) fun t => ?_
  have hP : ∀ s, (P s ∧ s.plan? b.id = some p) ∧ Except.ok s = (.ok t : Except Fault Session) →
      P s := fun _ hs => hs.1.1
  refine .bind_preserves .logAll hP fun _ => .bind_preserves .ofResult hP fun _ => ?_
  refine .bind (.mono Preserves.demandKeys (fun _ hs => hs) hP) Ensures.demandKeys fun _ => ?_
  refine .bind_preserves .logAll (fun _ hs => hP _ hs.1) fun _ => ?_
  obtain ⟨n, hn, hle, hlen⟩ := hc.passage (Planning.liveKeys b nav.survey t.responses)
  rw [hn]
  refine .bind_update (M := P) (fun s hs => ?_) ?_
  · obtain ⟨⟨⟨hs, hp⟩, ht⟩, hkeys⟩ := hs
    cases ht
    exact law.passed hs hb hp hc hkeys hn hle hlen
  · split
    · exact .pure fun _ hs => hs
    · exact .throw fun _ hs => hs

theorem preserves_enter (hb : nav.survey.Accepts b) : Preserves P (nav.enter b) := by
  refine leaves_planOf (fun _ hs => hs) fun o => ?_
  have hP : ∀ s, P s ∧ s.plan? b.id = o → P s := fun _ hs => hs.1
  cases o with
  | some p =>
    refine .given (fun s hs => law.cursor hs.1 hb hs.2) fun ⟨c, hc⟩ => ?_
    have hskip := leaves_skipStale law hb hc
    exact .bind_preserves .ofResult hP fun _ =>
      .bind hskip hskip.ensures fun _ => .pure fun _ hs => hs
  | none =>
    refine .bind (.mono Preserves.session (fun _ hs => hs) hP) Ensures.session fun t => ?_
    refine .bind (.mono (preserves_newPlan _ _) (fun _ hs => hs) fun _ hs => hP _ hs.1)
      (Planning.newPlan_ensures _) fun o => ?_
    refine .bind_update (fun s hs => ?_) (.pure fun _ hs => hs)
    -- The plan is made for the answers that were read, and those are the session's.
    obtain ⟨⟨⟨hs, hnone⟩, rfl⟩, ho⟩ := hs
    refine law.made hs hb hnone ?_
    cases o with
    | none => exact Planning.fits_skipped ho
    | some p => exact ho.1

theorem preserves_arriveWithin (hnav : nav.Proper) :
    ∀ (fuel : Nat) (id : Option Id), Preserves P (nav.arriveWithin fuel id)
  | 0, none | _ + 1, none => .pure
  | 0, some _ => .throw
  | fuel + 1, some id => by
    refine leaves_roleOf (fun _ hs => hs) ?_
    split
    · next b ho =>
      refine Preserves.bind (preserves_enter law (hnav.accepts_of_roleOf? ho)) fun x =>
        Preserves.bind .ofResult fun _ => ?_
      refine Preserves.ite (.bind .ofResult fun _ => .pure) <| .bind .log fun _ => ?_
      exact .bind (preserves_nextInOrder b.endPageId) fun id => preserves_arriveWithin hnav fuel id
    · exact Preserves.bind (preserves_iterationOf id) fun _ => .pure

theorem preserves_arrive (hnav : nav.Proper) (id : Option Id) : Preserves P (nav.arrive id) :=
  preserves_arriveWithin law hnav _ id

theorem preserves_firstPage (hnav : nav.Proper) : Preserves P nav.firstPage := by
  unfold firstPage
  split
  · exact .pure
  · exact .bind (preserves_isShown _) fun _ => .ite (preserves_arrive law hnav _) <|
      .bind (preserves_nextInOrder _) fun _ => preserves_arrive law hnav _

end Arriving

/-! ## Leaving -/

section Leaving
variable (law : CursorLaw nav.survey back P) (hnav : nav.Proper)
include law hnav

theorem preserves_continueLoop (id : Id) : Preserves P (nav.continueLoop id) := by
  refine leaves_roleOf (fun _ hs => hs) ?_
  split
  · next b ho =>
    have hb := hnav.accepts_of_roleOf? ho
    refine leaves_planOf (fun _ hs => hs) fun o => ?_
    cases o with
    | none => exact .pure fun _ hs => hs.1
    | some p =>
      refine .given (fun s hs => law.cursor hs.1 hb hs.2) fun ⟨c, hc⟩ => ?_
      refine .bind_ofOk hc.isComplete <| .ite (fun _ => .pure fun _ hs => hs.1) fun hlt => ?_
      have hlt : c < p.items.length := by simpa using hlt
      have hskip := leaves_skipStale law.arrival hb (LoopPlan.cursorAt_moved hlt)
      refine .bind_ofOk (hc.advance hlt) <| .bind_update (fun s hs => ?_) <|
        .bind hskip hskip.ensures fun q => Preserves.bind .ofResult fun _ => ?_
      · exact ⟨law.moved hs.1 hb hs.2 hc hlt (.inr (Nat.le_succ c)), s.plan?_setPlan_self _ _⟩
      exact .ite (.bind .log fun _ => .pure) <| .bind .log fun _ => .bind .ofResult fun _ => .pure
  · exact Preserves.pure

theorem preserves_nextPage (id : Id) : Preserves P (nav.nextPage id) := by
  refine .bind (preserves_around id) fun _ => .bind (preserves_continueLoop law hnav id)
    fun o => ?_
  split
  · exact .pure
  · exact .bind (preserves_nextInOrder id) fun _ => preserves_arrive law.arrival hnav _

/-- Only the battery that starts on the page is stepped back in. -/
theorem preserves_stepBack (hback : ∀ b, nav.roles.roleOf? id = some (b, .start) → back b) :
    Preserves P (nav.stepBack id) := by
  refine leaves_roleOf (fun _ hs => hs) ?_
  split
  · next b ho =>
    have hb := hnav.accepts_of_roleOf? ho
    refine leaves_planOf (fun _ hs => hs) fun o => ?_
    cases o with
    | none => exact .pure fun _ hs => hs.1
    | some p =>
      refine .given (fun s hs => law.cursor hs.1 hb hs.2) fun ⟨c, hc⟩ => ?_
      refine .bind_ofOk hc.rewind ?_
      by_cases hz : min c (p.items.length - 1) = 0
      · rw [if_pos hz]
        exact .pure fun _ hs => hs.1
      · rw [if_neg hz]
        refine .bind_update (fun s hs => ?_) (Preserves.bind .ofResult fun _ => .pure)
        exact law.moved hs.1 hb hs.2 hc (by omega) (.inl (hback b ho))
  · exact Preserves.pure

theorem preserves_previousPage (hback : ∀ b, nav.roles.roleOf? id = some (b, .start) → back b) :
    Preserves P (nav.previousPage id) := by
  refine .bind (preserves_around id) fun _ => .bind (preserves_stepBack law hnav hback)
    fun o => ?_
  split
  · exact .pure
  · exact .bind (preserves_previousInOrder id) fun _ => preserves_arriveBackWithin _ _

theorem preserves_closeIteration (id : Id) : Preserves P (nav.closeIteration id) := by
  refine leaves_roleOf (fun _ hs => hs) ?_
  split
  · next b ho =>
    have hb := hnav.accepts_of_roleOf? ho
    refine leaves_planOf (fun _ hs => hs) fun o => ?_
    cases o with
    | none => exact .pure fun _ hs => hs.1
    | some p =>
      refine .given (fun s hs => law.cursor hs.1 hb hs.2) fun ⟨c, hc⟩ => ?_
      refine .bind_ofOk hc.isComplete <| .ite (fun _ => .pure fun _ hs => hs.1) fun _ => ?_
      refine .bind_update (fun s hs => ?_) (Preserves.bind .log fun _ => .pure)
      exact law.moved hs.1 hb hs.2 hc (Nat.le_refl _) (.inr hc.le_length)
  · exact Preserves.pure

end Leaving

/-! ## Dropping plans -/

/-- Dropping plans preserves what each drop does. -/
theorem preserves_resetAll {D : Session → Prop} : ∀ {l : List Battery},
    (∀ b ∈ l, ∀ s, D s → D (s.dropPlan b.id)) → Preserves D (resetAll l)
  | [], _ => .pure
  | b :: r, hD => by
    have hrest : Preserves D (resetAll r) := preserves_resetAll fun c hc => hD c (.tail _ hc)
    have hgo : ∀ s : Session, Preserves D (if (s.plan? b.id).isSome then do
        Flow.update fun s => s.dropPlan b.id
        Flow.log (.batteryReset b.id)
        let rest ← resetAll r
        pure (b.id :: rest)
      else resetAll r) := by
      refine fun s => .ite (.bind (.update (hD b (.head _))) fun _ => .bind .log fun _ => ?_) hrest
      exact .bind hrest fun _ => .pure
    unfold resetAll
    exact .bind .session fun s => .ite (hgo s) (.bind .demandKeys fun _ => hgo s)

/-- The batteries in a list are left without plans, whatever else dropping plans respects. -/
theorem resetAll_ensures : ∀ {l : List Battery} {D : Session → Prop},
    (∀ s id, D s → D (s.dropPlan id)) →
      Ensures D (resetAll l) fun _ s => D s ∧ ∀ b ∈ l, s.plan? b.id = none
  | [], _, _ => .pure fun _ hs => ⟨hs, fun _ hb => nomatch hb⟩
  | b :: r, D, hD => by
    -- What the rest of the list leaves dropped or in place includes that `b` has no plan.
    have hrest := resetAll_ensures (l := r) (D := fun s => D s ∧ s.plan? b.id = none)
      fun s id hs => ⟨hD s id hs.1, by rw [Session.plan?_dropPlan]; split <;> simp [hs.2]⟩
    have hgone : ∀ s : Session, (D s ∧ s.plan? b.id = none) ∧ (∀ c ∈ r, s.plan? c.id = none) →
        D s ∧ ∀ c ∈ b :: r, s.plan? c.id = none :=
      fun s hs => ⟨hs.1.1, List.forall_mem_cons.2 ⟨hs.1.2, hs.2⟩⟩
    have hgo : ∀ s : Session, Ensures (fun t => D t ∧ s = t)
        (if (s.plan? b.id).isSome then do
          Flow.update fun s => s.dropPlan b.id
          Flow.log (.batteryReset b.id)
          let rest ← resetAll r
          Pure.pure (b.id :: rest)
        else resetAll r) fun _ s => D s ∧ ∀ c ∈ b :: r, s.plan? c.id = none := by
      refine fun s => .ite (fun _ => ?_) fun hnone => ?_
      · refine .bind (.update (Q := fun _ t => D t ∧ t.plan? b.id = none) fun t ht => ?_)
          fun _ => ?_
        · exact ⟨hD t b.id ht.1, by rw [Session.plan?_dropPlan, if_pos (Value.agrees_self _)]⟩
        · exact .bind Keeps.log fun _ => .bind hrest fun _ => .pure hgone
      · refine hrest.mono (fun t ht => ⟨ht.1, ?_⟩) fun _ => hgone
        rw [← ht.2]
        simpa using hnone
    unfold resetAll
    refine .bind .session fun s => ?_
    exact .ite (fun _ => hgo s) fun _ => .bind Keeps.demandKeys fun _ => hgo s

end Navigator

end Questionnaire
