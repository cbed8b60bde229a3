import Mathlib.Data.List.Induction
import Questionnaire.Proofs.Route.Keeping
import Questionnaire.Proofs.Route.Walk

/-!
# Plans persist

A plan is made once and then kept. In a run of calls to a navigator (`Call`, `Navigator.run`) the
answers may change in any way between two calls and calls may fail; still a stored plan keeps its
items in their order, and its cursor only rises, as long as its battery is not reset and not
stepped back in (`Navigator.plans_persist`).

What carries the induction over the run is that every call leaves a session whose plans are in
their places and follow the plans before the call (`Session.Sequel`), whatever becomes of the call.
A call that fails has changed what it had changed by then, so these are laws of what work leaves
behind, not of what it ensures.
-/

namespace Questionnaire

open Flow

/-! ## Plans that follow plans -/

/-- A plan with the items of another one, in their order. Its cursor is not before the other's
unless it may go back. -/
structure LoopPlan.Follows (back : Prop) (p q : LoopPlan) : Prop where
  items : q.items = p.items
  batteryId : q.batteryId = p.batteryId
  cursor : ∃ c n, p.CursorAt c ∧ q.CursorAt n ∧ (back ∨ c ≤ n)

namespace LoopPlan.Follows

variable {back : Prop} {p q r : LoopPlan} {c n : Nat}

theorem refl (h : p.CursorAt c) : Follows back p p :=
  ⟨rfl, rfl, c, c, h, h, .inr (Nat.le_refl c)⟩

theorem moved (h : p.CursorAt c) (hn : n ≤ p.items.length) (hle : back ∨ c ≤ n) :
    Follows back p (p.moved n) :=
  ⟨rfl, rfl, c, n, h, cursorAt_moved hn, hle⟩

theorem trans (h : Follows back p q) (h' : Follows back q r) : Follows back p r := by
  obtain ⟨c, m, hc, hm, hcm⟩ := h.cursor
  obtain ⟨m', n, hm', hn, hmn⟩ := h'.cursor
  cases hm.unique hm'
  refine ⟨h'.items.trans h.items, h'.batteryId.trans h.batteryId, c, n, hc, hn, ?_⟩
  rcases hcm with hback | hcm
  · exact .inl hback
  · exact hmn.imp_right (Nat.le_trans hcm)

theorem mono {back' : Prop} (h : Follows back p q) (hb : back → back') : Follows back' p q := by
  obtain ⟨c, n, hc, hn, hcn⟩ := h.cursor
  exact ⟨h.items, h.batteryId, c, n, hc, hn, hcn.imp_left hb⟩

end LoopPlan.Follows

/-- A session whose plans are in their places: each stands under the id of a battery, which is the
one that it is a plan of, and its cursor is among its items. -/
def Session.Orderly (survey : Survey) (s : Session) : Prop :=
  ∀ id p, s.plan? id = some p →
    ∃ b ∈ survey.batteries, id.agrees b.id = true ∧ p.batteryId = b.id ∧ ∃ c, p.CursorAt c

/-- An orderly session in which every plan of another session is still there or followed. -/
structure Session.Sequel (survey : Survey) (back : Battery → Prop) (u s : Session) : Prop where
  orderly : s.Orderly survey
  plans : ∀ b ∈ survey.batteries, ∀ p, u.plan? b.id = some p →
    ∃ q, s.plan? b.id = some q ∧ p.Follows (back b) q

namespace Session

variable {survey : Survey} {back : Battery → Prop} {u s t : Session} {b : Battery} {p : LoopPlan}
  {c n : Nat}

theorem orderly_of_forall_none (h : ∀ id, s.plan? id = none) : s.Orderly survey := by
  intro id p hp
  rw [h id] at hp
  cases hp

theorem Orderly.same (h : s.Orderly survey) (hplans : t.plans = s.plans) : t.Orderly survey := by
  intro id p hp
  rw [plan?, hplans] at hp
  exact h id p hp

theorem Orderly.exists_cursorAt (h : s.Orderly survey) {id : Id} (hp : s.plan? id = some p) :
    ∃ c, p.CursorAt c := by
  obtain ⟨b, -, -, -, hc⟩ := h id p hp
  exact hc

/-- A plan of a battery may be put in its place. -/
theorem Orderly.setPlan (h : s.Orderly survey) (hb : b ∈ survey.batteries)
    (hid : p.batteryId = b.id) (hc : p.CursorAt c) : (s.setPlan b.id p).Orderly survey := by
  intro id q hq
  rw [plan?_setPlan] at hq
  split at hq
  · next hagree =>
    cases hq
    exact ⟨b, hb, hagree, hid, c, hc⟩
  · exact h id q hq

theorem Orderly.dropPlan (h : s.Orderly survey) (id : Id) : (s.dropPlan id).Orderly survey := by
  intro j p hp
  rw [plan?_dropPlan] at hp
  split at hp
  · cases hp
  · exact h j p hp

theorem Orderly.batteryId (h : s.Orderly survey) (hapart : survey.BatteriesApart)
    (hb : b ∈ survey.batteries) (hp : s.plan? b.id = some p) : p.batteryId = b.id := by
  obtain ⟨b', hb', hagree, hid, -⟩ := h b.id p hp
  rw [hid, hapart.eq hb' hb ((Value.agrees_comm _ _).trans hagree)]

namespace Sequel

theorem refl (h : u.Orderly survey) : u.Sequel survey back u where
  orderly := h
  plans b _ p hp := by
    obtain ⟨c, hc⟩ := h.exists_cursorAt hp
    exact ⟨p, hp, .refl hc⟩

theorem same (h : u.Sequel survey back s) (hplans : t.plans = s.plans) :
    u.Sequel survey back t where
  orderly := h.orderly.same hplans
  plans b hb p hp := by
    rw [plan?, hplans]
    exact h.plans b hb p hp

/-- A new plan takes no other one's place. -/
theorem setPlan_new (h : u.Sequel survey back s) (hb : b ∈ survey.batteries)
    (hnone : s.plan? b.id = none) (hid : p.batteryId = b.id) (hc : p.CursorAt c) :
    u.Sequel survey back (s.setPlan b.id p) where
  orderly := h.orderly.setPlan hb hid hc
  plans b' hb' p' hp' := by
    obtain ⟨q, hq, hfollows⟩ := h.plans b' hb' p' hp'
    refine ⟨q, ?_, hfollows⟩
    rw [plan?_setPlan, if_neg, hq]
    intro hagree
    rw [plan?, Register.get?_congr s.plans hagree, ← plan?, hnone] at hq
    cases hq

/-- A plan whose cursor is moved takes its own place. -/
theorem setPlan_moved (h : u.Sequel survey back s) (hapart : survey.BatteriesApart)
    (hb : b ∈ survey.batteries) (hp : s.plan? b.id = some p) (hc : p.CursorAt c)
    (hn : n ≤ p.items.length) (hle : back b ∨ c ≤ n) :
    u.Sequel survey back (s.setPlan b.id (p.moved n)) where
  orderly :=
    have hid : p.batteryId = b.id := h.orderly.batteryId hapart hb hp
    h.orderly.setPlan hb hid (LoopPlan.cursorAt_moved hn)
  plans b' hb' p' hp' := by
    obtain ⟨q, hq, hfollows⟩ := h.plans b' hb' p' hp'
    rw [plan?_setPlan]
    by_cases hagree : b'.id.agrees b.id = true
    · cases hapart.eq hb' hb hagree
      rw [hp] at hq
      cases hq
      exact ⟨p.moved n, if_pos hagree, hfollows.trans (.moved hc hn hle)⟩
    · exact ⟨q, by rw [if_neg hagree, hq], hfollows⟩

end Sequel

end Session

/-- Plans are followed wherever navigation leads. -/
theorem Session.Sequel.law {survey : Survey} (hapart : survey.BatteriesApart)
    (back : Battery → Prop) (u : Session) : CursorLaw survey back (u.Sequel survey back) where
  cursor hs _ hp := hs.orderly.exists_cursorAt hp
  made hs hb hnone hp := hp.cursor.elim fun _ hc => hs.setPlan_new hb.mem hnone hp.batteryId hc
  moved hs hb hp hc hn hle := hs.setPlan_moved hapart hb.mem hp hc hn hle

namespace Navigator

/-- A reset takes away plans of batteries that are made from the answer to the question, and changes
nothing else. -/
theorem preserves_resetLoops {nav : Navigator} {u : Session} (hapart : nav.survey.BatteriesApart)
    (questionId : Id) :
    Preserves (fun s => s.Orderly nav.survey ∧ ∀ b ∈ nav.survey.batteries,
        s.plan? b.id = u.plan? b.id ∨
          (b.source = .answer ∧ b.sourceQuestionId.equal questionId = true) ∧ s.plan? b.id = none)
      (nav.resetLoops questionId) := by
  refine preserves_resetAll fun b hb s hs => ⟨hs.1.dropPlan b.id, fun b' hb' => ?_⟩
  obtain ⟨hb, hsourced⟩ := List.mem_filter.1 hb
  rw [Session.plan?_dropPlan]
  split
  · next hagree =>
    cases hapart.eq hb' hb hagree
    exact .inr ⟨by simpa using hsourced, rfl⟩
  · exact hs.2 b' hb'

/-! ## Runs -/

/-- What a navigator is asked, and what is done to the answers in between. -/
inductive Call
  | firstPage
  | arrive (page : Option Id)
  | nextPage (page : Id)
  | previousPage (page : Id)
  | closeIteration (page : Id)
  | resetLoops (question : Id)
  | iterationOf (page : Id)
  | continuesLoop (page : Id)
  | progress (battery : Id)
  | write (responses : Register Value)

namespace Call

/-- The desk after a call, whether it has a result or fails. -/
def after (nav : Navigator) (d : Desk) : Call → Desk
  | .firstPage => (nav.firstPage.perform d).2
  | .arrive page => ((nav.arrive page).perform d).2
  | .nextPage page => ((nav.nextPage page).perform d).2
  | .previousPage page => ((nav.previousPage page).perform d).2
  | .closeIteration page => ((nav.closeIteration page).perform d).2
  | .resetLoops question => ((nav.resetLoops question).perform d).2
  | .iterationOf page => ((nav.iterationOf page).perform d).2
  | .continuesLoop page => ((nav.continuesLoop page).perform d).2
  | .progress battery => ((Navigator.progress battery).perform d).2
  | .write responses => { d with session := { d.session with responses := responses } }

/-- A call to drop the plans made from the answer that a battery is made from. -/
def Resets (b : Battery) : Call → Prop
  | .resetLoops question => b.source = .answer ∧ b.sourceQuestionId.equal question = true
  | _ => False

/-- A call to go back from the start page of a battery. -/
def StepsBack (b : Battery) : Call → Prop
  | .previousPage page => page.agrees b.startPageId = true
  | _ => False

/-- What a call does to plans: they stay in their places and are followed, except that the call may
take those away that it resets. -/
theorem plans_after {nav : Navigator} (hapart : nav.survey.BatteriesApart) (hnav : nav.Proper)
    {d : Desk} (hd : d.session.Orderly nav.survey) (call : Call) :
    (call.after nav d).session.Orderly nav.survey ∧
    ∀ b ∈ nav.survey.batteries, ∀ p, d.session.plan? b.id = some p →
      (call.Resets b ∧ (call.after nav d).session.plan? b.id = none) ∨
      ∃ q, (call.after nav d).session.plan? b.id = some q ∧ p.Follows (call.StepsBack b) q := by
  have hstart : d.session.Sequel nav.survey (fun b => call.StepsBack b) d.session := .refl hd
  have law := Session.Sequel.law hapart (fun b => call.StepsBack b) d.session
  have hsequel : ∀ s : Session, d.session.Sequel nav.survey (fun b => call.StepsBack b) s →
      s.Orderly nav.survey ∧ ∀ b ∈ nav.survey.batteries, ∀ p, d.session.plan? b.id = some p →
        (call.Resets b ∧ s.plan? b.id = none) ∨
        ∃ q, s.plan? b.id = some q ∧ p.Follows (call.StepsBack b) q :=
    fun s hs => ⟨hs.orderly, fun b hb p hp => .inr (hs.plans b hb p hp)⟩
  cases call with
  | firstPage => exact hsequel _ (preserves_firstPage law.arrival hnav d hstart)
  | arrive page => exact hsequel _ (preserves_arrive law.arrival hnav page d hstart)
  | nextPage page => exact hsequel _ (preserves_nextPage law hnav page d hstart)
  | previousPage page =>
    refine hsequel _ (preserves_previousPage law hnav (fun b ho => ?_) d hstart)
    exact RoleTable.agrees_startPageId_of_roleOf? ho
  | closeIteration page => exact hsequel _ (preserves_closeIteration law hnav page d hstart)
  | iterationOf page => exact hsequel _ (preserves_iterationOf page d hstart)
  | continuesLoop page => exact hsequel _ (preserves_continuesLoop page d hstart)
  | progress battery => exact hsequel _ (preserves_progress battery d hstart)
  | write responses => exact hsequel _ (hstart.same rfl)
  | resetLoops question =>
    obtain ⟨horderly, hplans⟩ := preserves_resetLoops hapart question d
      ⟨hd, fun _ _ => .inl rfl⟩
    refine ⟨horderly, fun b hb p hp => ?_⟩
    rcases hplans b hb with hsame | hgone
    · obtain ⟨c, hc⟩ := hd.exists_cursorAt hp
      exact .inr ⟨p, hsame.trans hp, .refl hc⟩
    · exact .inl hgone

end Call

/-- The session after calls, each with a generator of its own. -/
def run (nav : Navigator) (s : Session) (calls : List (Call × Generator)) : Session :=
  calls.foldl (fun s x => (x.1.after nav ⟨s, x.2, []⟩).session) s

variable {nav : Navigator} {s : Session} {b : Battery} {p : LoopPlan}

@[simp] theorem run_nil (nav : Navigator) (s : Session) : nav.run s [] = s := rfl

theorem run_concat (nav : Navigator) (s : Session) (calls : List (Call × Generator))
    (x : Call × Generator) :
    nav.run s (calls ++ [x]) = (x.1.after nav ⟨nav.run s calls, x.2, []⟩).session :=
  List.foldl_concat ..

section
variable (hapart : nav.survey.BatteriesApart) (hnav : nav.Proper)
include hapart hnav

theorem orderly_run : ∀ {s : Session} (calls : List (Call × Generator)),
    s.Orderly nav.survey → (nav.run s calls).Orderly nav.survey
  | _, [], hs => hs
  | s, x :: r, hs =>
    orderly_run r (Call.plans_after (d := ⟨s, x.2, []⟩) hapart hnav hs x.1).1

/-- A plan that is not reset is followed, with a cursor not before its own unless its battery was
stepped back in. -/
theorem follows_run (hb : b ∈ nav.survey.batteries) :
    ∀ {s : Session} {p : LoopPlan} {calls : List (Call × Generator)}, s.Orderly nav.survey →
      s.plan? b.id = some p → (∀ x ∈ calls, ¬x.1.Resets b) →
      ∃ q, (nav.run s calls).plan? b.id = some q ∧ p.Follows (∃ x ∈ calls, x.1.StepsBack b) q
  | _, p, [], hs, hp, _ => by
    obtain ⟨c, hc⟩ := hs.exists_cursorAt hp
    exact ⟨p, hp, .refl hc⟩
  | s, p, x :: r, hs, hp, hkept => by
    obtain ⟨horderly, hplans⟩ := Call.plans_after (d := ⟨s, x.2, []⟩) hapart hnav hs x.1
    rcases hplans b hb p hp with ⟨hreset, -⟩ | ⟨q, hq, hpq⟩
    · exact absurd hreset (hkept x (.head _))
    · obtain ⟨q', hq', hqq'⟩ := follows_run hb horderly hq fun y hy => hkept y (.tail _ hy)
      refine ⟨q', hq', (hpq.mono fun hback => ⟨x, .head _, hback⟩).trans (hqq'.mono ?_)⟩
      exact fun ⟨y, hy, hback⟩ => ⟨y, .tail _ hy, hback⟩

/-- A plan has the items with which it was made in the course of the run. -/
theorem exists_made (hb : b ∈ nav.survey.batteries) (hs : s.Orderly nav.survey)
    (hnone : s.plan? b.id = none) {calls : List (Call × Generator)}
    (hp : (nav.run s calls).plan? b.id = some p) :
    ∃ made x rest, calls = made ++ x :: rest ∧ (nav.run s made).plan? b.id = none ∧
      ∃ p₀, (nav.run s (made ++ [x])).plan? b.id = some p₀ ∧ p.items = p₀.items := by
  induction calls using List.reverseRecOn generalizing p with
  | nil =>
    rw [run_nil, hnone] at hp
    cases hp
  | append_singleton calls x ih =>
    cases hbefore : (nav.run s calls).plan? b.id with
    | none => exact ⟨calls, x, [], rfl, hbefore, p, hp, rfl⟩
    | some q =>
      obtain ⟨-, hplans⟩ := Call.plans_after (d := ⟨nav.run s calls, x.2, []⟩) hapart hnav
        (orderly_run hapart hnav calls hs) x.1
      rw [run_concat] at hp
      rcases hplans b hb q hbefore with ⟨-, hgone⟩ | ⟨p', hp', hfollows⟩
      · rw [hp] at hgone
        cases hgone
      · rw [hp] at hp'
        cases hp'
        obtain ⟨made, y, rest, rfl, hmade, p₀, hp₀, hitems⟩ := ih hbefore
        exact ⟨made, y, rest ++ [x], by simp, hmade, p₀, hp₀, hfollows.items.trans hitems⟩

end

/-- Plans persist verbatim. In every run of calls from a session without plans every stored plan has
its cursor among its items and is the plan of the battery under whose id it stands; its items, in
their order, are those with which it was made; and in whatever calls come next it is taken away only
by a reset of its battery, and its cursor falls only when its battery is stepped back in. -/
theorem plans_persist {survey : Survey} (hapart : survey.BatteriesApart) (skipHidden quiet : Bool)
    {s₀ : Session} (hnew : ∀ id, s₀.plan? id = none) (before next : List (Call × Generator)) :
    let nav := ofSurvey survey skipHidden quiet
    let s := nav.run s₀ before
    s.Orderly survey ∧
    ∀ b ∈ survey.batteries, ∀ p, s.plan? b.id = some p →
      (∃ made x rest, before = made ++ x :: rest ∧ (nav.run s₀ made).plan? b.id = none ∧
        ∃ p₀, (nav.run s₀ (made ++ [x])).plan? b.id = some p₀ ∧ p.items = p₀.items) ∧
      ((∀ x ∈ next, ¬x.1.Resets b) →
        ∃ q, (nav.run s next).plan? b.id = some q ∧ p.Follows (∃ x ∈ next, x.1.StepsBack b) q) := by
  intro nav s
  have hnav : nav.Proper := proper_ofSurvey survey skipHidden quiet
  have hapart : nav.survey.BatteriesApart := hapart
  have hs₀ : s₀.Orderly survey := Session.orderly_of_forall_none hnew
  have hs : s.Orderly survey := orderly_run hapart hnav before hs₀
  refine ⟨hs, fun b hb p hp => ⟨?_, fun hkept => ?_⟩⟩
  · exact exists_made hapart hnav hb hs₀ (hnew b.id) hp
  · exact follows_run hapart hnav hb hs hp hkept

open Sample BrandTracker in
/-- The plan over two brands while all answers are taken back, so that the second brand is stale,
and while another question's batteries are reset. -/
theorem plans_persist_brandTracker :
    let nav := ofSurvey (BrandTracker.survey (.int 2)) true false
    let s := nav.run aware [(.arrive (some brands.startPageId), .ofScript [])]
    let next := [(Call.write ∅, Generator.ofScript []),
      (.nextPage brands.endPageId, .ofScript []), (.resetLoops (.text "q_age"), .ofScript [])]
    ∃ p, s.plan? brands.id = some p ∧ p.keys = [.text "nike", .text "puma"] ∧
      ∃ q, (nav.run s next).plan? brands.id = some q ∧
        p.Follows (∃ x ∈ next, x.1.StepsBack brands) q := by
  intro nav s next
  obtain ⟨p, hp, hkeys⟩ : ∃ p, s.plan? brands.id = some p ∧
      p.keys = [.text "nike", .text "puma"] := by
    have hmade : (s.plan? brands.id).map LoopPlan.keys = some [.text "nike", .text "puma"] := by
      simp only [s, nav, ofSurvey_survey]
      decide +kernel
    exact Option.map_eq_some_iff.1 hmade
  have hkept : ∀ x ∈ next, ¬x.1.Resets brands := by
    simp [next, Call.Resets, brands]
    decide
  have hnew : ∀ id, aware.plan? id = none := Register.get?_empty
  obtain ⟨-, hplans⟩ := plans_persist (typed.batteriesApart distinct) true false hnew
    [(.arrive (some brands.startPageId), .ofScript [])] next
  exact ⟨p, hp, hkeys, (hplans brands (.head _) p hp).2 hkept⟩

end Navigator

end Questionnaire
