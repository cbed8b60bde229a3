import Questionnaire.Proofs.Interview.Keeping

/-!
# One step, one item

Leaving a page forward moves the cursor of a plan by one item at most (`Interview.forward_onward`).
Leaving the end page of a battery moves the cursor of its plan to the next item, and a jump from
there closes the plan, which is at its last item then. Whatever navigation does after that moves
cursors only over stale items, and in a session whose plans fit its answers no item is stale.
-/

namespace Questionnaire

open Flow

/-- A plan that is left alone, or whose cursor is moved to the next item. -/
def LoopPlan.Advances (p q : LoopPlan) : Prop :=
  q = p ∨ ∃ c, p.CursorAt c ∧ c < p.items.length ∧ q = p.moved (c + 1)

namespace Session

/-- A session whose plans fit, and in which the plans of another session have advanced. -/
structure Onward (survey : Survey) (u s : Session) : Prop where
  fitted : s.Fitted survey
  plans : ∀ id p, u.plan? id = some p → ∃ q, s.plan? id = some q ∧ p.Advances q

variable {survey : Survey} {u s t : Session} {b : Battery} {p : LoopPlan} {c : Nat}

theorem Onward.of_eq (h : u.Fitted survey) (hs : s = u) : u.Onward survey s :=
  ⟨hs ▸ h, fun _ p hp => ⟨p, hs ▸ hp, .inl rfl⟩⟩

theorem Onward.same (h : u.Onward survey s) (halike : s.Alike t) : u.Onward survey t where
  fitted := h.fitted.same halike.plans halike.responses
  plans id p hp := by
    rw [plan?, halike.plans]
    exact h.plans id p hp

theorem plan?_of_agrees (s : Session) {id j : Id} (h : j.agrees id = true) :
    s.plan? j = s.plan? id := Register.get?_congr s.plans h

/-- A plan for a battery that has none takes nothing away. -/
theorem Onward.setPlan_new (h : u.Onward survey s) (hapart : survey.BatteriesApart)
    (hb : b ∈ survey.batteries) (hnone : s.plan? b.id = none)
    (hfits : b.Fits survey s.responses p) : u.Onward survey (s.setPlan b.id p) where
  fitted := h.fitted.setPlan hapart hb hfits
  plans id p₀ hp₀ := by
    obtain ⟨q, hq, hadvances⟩ := h.plans id p₀ hp₀
    refine ⟨q, ?_, hadvances⟩
    rw [plan?_setPlan, if_neg, hq]
    intro hagree
    rw [s.plan?_of_agrees hagree, hnone] at hq
    cases hq

/-- A plan put where it is already changes nothing. -/
theorem Onward.setPlan_same (h : u.Onward survey s) (hapart : survey.BatteriesApart)
    (hb : b ∈ survey.batteries) (hp : s.plan? b.id = some p) :
    u.Onward survey (s.setPlan b.id p) where
  fitted := h.fitted.setPlan hapart hb (h.fitted b hb p hp)
  plans id p₀ hp₀ := by
    obtain ⟨q, hq, hadvances⟩ := h.plans id p₀ hp₀
    refine ⟨q, ?_, hadvances⟩
    rw [plan?_setPlan]
    split
    · next hagree => rw [← hp, ← s.plan?_of_agrees hagree, hq]
    · exact hq

/-- The cursor of one plan is moved to the next item. -/
theorem Onward.advance (h : u.Fitted survey) (hapart : survey.BatteriesApart)
    (hb : b ∈ survey.batteries) (hp : u.plan? b.id = some p) (hc : p.CursorAt c)
    (hlt : c < p.items.length) : u.Onward survey (u.setPlan b.id (p.moved (c + 1))) where
  fitted := h.setPlan hapart hb ((h b hb p hp).moved hlt)
  plans id p₀ hp₀ := by
    rw [plan?_setPlan]
    split
    · next hagree =>
      rw [u.plan?_of_agrees hagree, hp] at hp₀
      cases hp₀
      exact ⟨_, rfl, .inr ⟨c, hc, hlt, rfl⟩⟩
    · exact ⟨p₀, hp₀, .inl rfl⟩

end Session

namespace Navigator

variable {nav : Navigator} {P : Session → Prop} {u : Session} {b : Battery} {p : LoopPlan}

/-- No item of a plan that fits is stale. -/
theorem skipStale_same (hfits : ∀ s, P s → b.Fits nav.survey s.responses p)
    (hset : ∀ s, P s → P (s.setPlan b.id p)) :
    Ensures P (nav.skipStale b p) fun q s => P s ∧ q = p := by
  refine .bind Keeps.ofResult fun _ => .ite (fun _ => .pure fun _ hs => ⟨hs, rfl⟩) fun _ => ?_
  refine .bind .session fun t => .given (fun s hs => hs.2 ▸ hfits s hs.1) fun hfits => ?_
  refine .bind Keeps.logAll fun _ => .bind Keeps.ofResult fun _ => .bind .demandKeys fun _ => ?_
  refine .given (fun _ hs => hs.2) fun hkeys => ?_
  rw [hfits.passage fun item hitem => hkeys item.key (List.mem_map_of_mem hitem)]
  exact .bind Keeps.logAll fun _ => .bind (.update fun s hs => hset s hs.1.1) fun _ =>
    .pure fun _ hs => ⟨hs, rfl⟩

/-- The plan of the battery that ends on a page is at its last item or behind it. -/
def AtLast (nav : Navigator) (u : Session) (page : Id) : Prop :=
  ∀ b p c, nav.roles.roleOf? page = some (b, .finish) → u.plan? b.id = some p → p.CursorAt c →
    p.items.length ≤ c + 1

/-- A battery that starts no other iteration is at its last item. -/
theorem continuesLoop_ensures (page : Id) :
    Ensures (· = u) (nav.continuesLoop page) fun more s =>
      s = u ∧ (more = false → nav.AtLast u page) := by
  refine bind_roleOf ?_
  split
  · next b ho =>
    refine bind_planOf fun o => ?_
    cases o with
    | none =>
      refine .pure fun s ⟨hs, hnone⟩ => ⟨hs, fun _ b' p c hb' hp _ => ?_⟩
      rw [ho] at hb'
      cases hb'
      rw [← hs, hnone] at hp
      cases hp
    | some p =>
      refine Ensures.ofResult.mono (fun _ hs => hs) fun more s ⟨⟨hs, hp⟩, hmore⟩ => ?_
      refine ⟨hs, fun hlast b' q c hb' hq hc => ?_⟩
      rw [ho] at hb'
      cases hb'
      rw [← hs, hp] at hq
      cases hq
      rw [hc.hasNext, hlast] at hmore
      simpa using hmore
  · next hno => exact .pure fun s hs => ⟨hs, fun _ b _ _ hb => absurd hb (hno b)⟩

section Apart
variable (hnav : nav.Proper) (hapart : nav.survey.BatteriesApart)
include hapart

/-- Arriving at a page moves no cursor: no item of a plan that fits is stale. -/
theorem onwardLaw : ArrivalLaw nav.survey (u.Onward nav.survey) where
  cursor hs hb hp := (hs.fitted _ hb.mem _ hp).cursor
  made hs hb hnone hp := hs.setPlan_new hapart hb.mem hnone hp
  passed {s b p c n} hs hb hp hc hkeys hn _ _ := by
    have hfits := hs.fitted b hb.mem p hp
    have hpassage := hfits.passage fun item hitem =>
      hkeys item.key (List.mem_map_of_mem hitem)
    rw [hpassage] at hn
    have hmoved : p.moved n = p := by rw [LoopPlan.moved, ← hn]
    rw [hmoved]
    exact hs.setPlan_same hapart hb.mem hp

include hnav

theorem onward_arrive (id : Option Id) : Keeps (u.Onward nav.survey) (nav.arrive id) :=
  (preserves_arrive (onwardLaw hapart) hnav id).keeps

variable (hu : u.Fitted nav.survey)
include hu

theorem continueLoop_onward (id : Id) :
    Ensures (· = u) (nav.continueLoop id) fun _ => u.Onward nav.survey := by
  refine bind_roleOf ?_
  split
  · next b ho =>
    have hb := (hnav.accepts_of_roleOf? ho).mem
    refine bind_planOf fun o => ?_
    cases o with
    | none => exact .pure fun s hs => .of_eq hu hs.1
    | some p =>
      refine .given (fun s hs => hs.1 ▸ hs.2) fun (hp : u.plan? b.id = some p) => ?_
      obtain ⟨c, hc⟩ := (hu b hb p hp).cursor
      refine .bind_ofOk hc.isComplete <| .ite (fun _ => .pure fun s hs => .of_eq hu hs.1)
        fun hlt => ?_
      have hlt : c < p.items.length := by simpa using hlt
      let P (s : Session) : Prop :=
        u.Onward nav.survey s ∧ s.plan? b.id = some (p.moved (c + 1))
      have hskip : Ensures P (nav.skipStale b (p.moved (c + 1))) fun q s =>
          P s ∧ q = p.moved (c + 1) :=
        skipStale_same (fun s hs => hs.1.fitted b hb _ hs.2) fun s hs =>
          ⟨hs.1.setPlan_same hapart hb hs.2, s.plan?_setPlan_self _ _⟩
      refine .bind_ofOk (hc.advance hlt) <| .bind (.update (Q := fun _ => P) fun s hs => ?_)
        fun _ => .bind hskip fun q => .bind Keeps.ofResult fun _ => ?_
      · rw [hs.1]
        exact ⟨.advance hu hapart hb hp hc hlt, u.plan?_setPlan_self _ _⟩
      · refine .ite (fun _ => .bind Keeps.log fun _ => .pure fun _ hs => hs.1.1) fun _ => ?_
        exact .bind Keeps.log fun _ => .bind Keeps.ofResult fun _ => .pure fun _ hs => hs.1.1
  · exact .pure fun s hs => .of_eq hu hs

theorem nextPage_onward (id : Id) :
    Ensures (· = u) (nav.nextPage id) fun _ => u.Onward nav.survey := by
  refine .bind (preserves_around id).keeps fun _ => ?_
  refine .bind (continueLoop_onward hnav hapart hu id) fun o => ?_
  split
  · exact .pure fun _ hs => hs
  · exact .bind (preserves_nextInOrder id).keeps fun _ => onward_arrive hnav hapart _

/-- To close a plan at its last item is to move its cursor by one. -/
theorem closeIteration_onward {id : Id} (hlast : nav.AtLast u id) :
    Ensures (· = u) (nav.closeIteration id) fun _ => u.Onward nav.survey := by
  refine bind_roleOf ?_
  split
  · next b ho =>
    have hb := (hnav.accepts_of_roleOf? ho).mem
    refine bind_planOf fun o => ?_
    cases o with
    | none => exact .pure fun s hs => .of_eq hu hs.1
    | some p =>
      refine .given (fun s hs => hs.1 ▸ hs.2) fun (hp : u.plan? b.id = some p) => ?_
      obtain ⟨c, hc⟩ := (hu b hb p hp).cursor
      refine .bind_ofOk hc.isComplete <| .ite (fun _ => .pure fun s hs => .of_eq hu hs.1)
        fun hlt => ?_
      have hlt : c < p.items.length := by simpa using hlt
      have hclose : p.close = p.moved (c + 1) := by
        rw [show c + 1 = p.items.length by have := hlast b p c ho hp hc; omega]
        rfl
      refine .bind (.update (Q := fun _ => u.Onward nav.survey) fun s hs => ?_) fun _ =>
        .bind Keeps.log fun _ => .pure fun _ hs => hs
      rw [hs.1, hclose]
      exact .advance hu hapart hb hp hc hlt
  · exact .pure fun s hs => .of_eq hu hs

end Apart

end Navigator

namespace Interview

variable {iv : Interview} {u : Session} (hapart : iv.survey.BatteriesApart)
include hapart

/-- A jump moves no cursor. -/
theorem onward_follow (id : Id) (outcome : JumpOutcome) :
    Keeps (u.Onward iv.survey) (iv.follow id outcome) := by
  refine .ite (.bind (keeps_terminate .same outcome) fun _ => keeps_position) ?_
  split
  · exact .bind .log fun _ => Navigator.onward_arrive proper_navigator hapart _
  · exact .bind .log fun _ => .pure

variable (hu : u.Fitted iv.survey)
include hu

theorem leave_onward (id page : Id) :
    Ensures (· = u) (iv.leave id page) fun _ => u.Onward iv.survey := by
  have hnext := Navigator.nextPage_onward proper_navigator hapart hu page
  refine .bind Navigator.keeps_announce fun _ => .bind (Navigator.continuesLoop_ensures page)
    fun more => .ite (fun _ => hnext.mono (fun _ hs => hs.1) fun _ _ hs => hs) fun hmore => ?_
  refine .given (fun _ hs => hs.2 hmore) fun hlast => ?_
  refine .bind ((keeps_jumpOnLeaving page).mono (fun _ hs => hs.1) fun _ _ hs => hs) fun o => ?_
  split
  · exact hnext
  · exact .bind (Navigator.closeIteration_onward proper_navigator hapart hu hlast) fun _ =>
      onward_follow hapart id _

/-- A request to leave a page forward moves every cursor by one item at most. -/
theorem forward_onward (id : Id) (fromPage : Option Id) :
    Ensures (· = u) (iv.forward id fromPage) fun _ => u.Onward iv.survey := by
  rw [forward_eq]
  refine onCurrentPage_ensures ?_ (fun page => ?_) fromPage
  · exact keeps_locate.mono (fun _ hs => hs) fun _ _ hs => .of_eq hu hs
  · refine .bind ((leave_onward hapart hu id page).mono (fun _ hs => hs.1) fun _ _ hs => hs)
      fun landing => .bind (keeps_settle .same landing) fun _ => .pure fun _ hs => hs

end Interview

end Questionnaire
