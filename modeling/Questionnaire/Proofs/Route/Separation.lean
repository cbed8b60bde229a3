import Questionnaire.Proofs.Route.Passing
import Questionnaire.Proofs.Route.Trail

/-!
# What a search leaves alone

Arriving at a page changes plans only, and only those of batteries that it enters. A search that
begins behind a place enters batteries that start behind it. So it leaves alone whatever the plans
of those batteries do not matter to (`Oriented.preserves_arriveWithin_of`): the answers and the
embedded data, and the plan of every battery with a page up to that place
(`Oriented.arriveWithin_leaves_alone`).
-/

namespace Questionnaire

open Flow

theorem Session.SameData.refl (s : Session) : s.SameData s := ⟨rfl, rfl⟩

theorem Session.SameData.setPlan {s t : Session} (h : s.SameData t) (id : Id) (p : LoopPlan) :
    s.SameData (t.setPlan id p) := ⟨h.responses, h.embedded⟩

namespace Navigator

variable {nav : Navigator} {P : Session → Prop} {p : Page} {b : Battery} {role : LoopRole}
  {plan : LoopPlan} {s : Session} {r : Int} {o : Option Id}

theorem preserves_skipStale_of (hset : ∀ s q, P s → P (s.setPlan b.id q)) :
    Preserves P (nav.skipStale b plan) := by
  refine .bind .ofResult fun _ => .ite .pure <| .bind .session fun _ => .bind .logAll fun _ => ?_
  refine .bind .ofResult fun _ => .bind .demandKeys fun _ => .bind .logAll fun _ => ?_
  refine .bind (.update fun s hs => hset s _ hs) fun _ => ?_
  split
  · exact .pure
  · exact .throw

theorem preserves_enter_of (hset : ∀ s q, P s → P (s.setPlan b.id q)) :
    Preserves P (nav.enter b) := by
  refine .bind (preserves_planOf b.id) fun o => ?_
  cases o with
  | some plan =>
    exact .bind .ofResult fun _ => .bind (preserves_skipStale_of hset) fun _ => .pure
  | none =>
    exact .bind .session fun _ => .bind (preserves_newPlan _ _) fun _ =>
      .bind (.update fun s hs => hset s _ hs) fun _ => .pure

/-- A turn of a search changes the plan of a battery that starts on the page and nothing else. -/
theorem preserves_arrivalTurn_of {id : Id}
    (hset : ∀ b, nav.roles.roleOf? id = some (b, .start) → ∀ s q, P s → P (s.setPlan b.id q)) :
    Preserves P (nav.arrivalTurn id) := by
  refine leaves_roleOf (fun _ hs => hs) ?_
  split
  · next b hrole =>
    refine Preserves.bind (preserves_enter_of (hset b hrole)) fun _ => ?_
    refine .bind .ofResult fun _ => .ite (.bind .ofResult fun _ => .pure) ?_
    exact .bind .log fun _ => .bind (preserves_nextInOrder _) fun _ => .pure
  · exact Preserves.bind (preserves_iterationOf id) fun _ => .pure

namespace Oriented

/-- A search behind a place changes the plans of batteries that start behind it and nothing else. -/
theorem preserves_arriveWithin_of (h : nav.Oriented)
    (hset : ∀ start ∈ nav.pages, r < start.rank → ∀ b,
      nav.roles.ownerOf? start.id = some (b, .start) → ∀ s q, P s → P (s.setPlan b.id q)) :
    ∀ (fuel : Nat) {o : Option Id}, nav.Behind r o → Preserves P (nav.arriveWithin fuel o)
  | fuel, none, _ => arriveWithin_none fuel ▸ .pure
  | 0, some _, _ => .throw
  | fuel + 1, some id, ho => by
    obtain ⟨p, hp, rfl, hr⟩ := ho id rfl
    rw [arriveWithin_succ]
    have hturn : Preserves P (nav.arrivalTurn p.id) := preserves_arrivalTurn_of fun b hrole =>
      hset p hp hr b ((h.roleOf?_eq hp).symm.trans hrole)
    have hlater : Ensures P (nav.arrivalTurn p.id) fun t s => P s ∧
        ∀ o, t = .goesOn o → nav.Behind p.rank o :=
      hturn.keeps.and ((h.arrivalTurn_later hp).mono (fun _ _ => trivial) fun _ _ ht => ht)
    refine Leaves.bind hturn hlater fun t => .given (fun _ hs => hs.2) fun hbehind => ?_
    cases t with
    | lands l => exact .pure fun _ hs => hs.1
    | goesOn o =>
      have hrest : nav.Behind r o := (hbehind o rfl).mono (by omega)
      exact (preserves_arriveWithin_of h hset fuel hrest).mono (fun _ hs => hs.1) fun _ hs => hs

/-- A search behind a page leaves the answers and the embedded data alone, and the plan of the
battery that owns the page. -/
theorem arriveWithin_leaves_alone (h : nav.Oriented) (hd : nav.survey.Distinct) (hp : p ∈ nav.pages)
    (hrole : nav.roles.ownerOf? p.id = some (b, role)) (fuel : Nat) (ho : nav.Behind p.rank o) :
    Preserves (fun t => s.SameData t ∧ t.plan? b.id = some plan) (nav.arriveWithin fuel o) := by
  refine h.preserves_arriveWithin_of (fun start hstart hlt c hc t q ht => ?_) fuel ho
  have hapart : b.id.agrees c.id = false := by
    refine h.typed.agrees_eq_false hd (h.mem_batteries hrole) (h.mem_batteries hc) ?_
    rintro rfl
    have := h.start_le hstart hc hp hrole
    omega
  refine ⟨ht.1.setPlan _ _, ?_⟩
  rw [Session.plan?_setPlan, hapart]
  exact ht.2

/-- Going on from a page to the next one that is shown leaves alone the plan of the battery that
owns the page. -/
theorem onward_leaves_alone (h : nav.Oriented) (hd : nav.survey.Distinct) (hp : p ∈ nav.pages)
    (hrole : nav.roles.ownerOf? p.id = some (b, role)) :
    Preserves (fun t => s.SameData t ∧ t.plan? b.id = some plan)
      (do nav.arrive (← nav.nextInOrder p.id)) := by
  refine Leaves.bind (preserves_nextInOrder p.id)
    ((preserves_nextInOrder p.id).keeps.and (h.nextInOrder_behind hp)) fun o =>
      .given (fun _ hs => hs.2) fun ho => ?_
  exact (h.arriveWithin_leaves_alone hd hp hrole _ ho).mono (fun _ hs => hs.1) fun _ hs => hs

end Oriented

end Navigator

end Questionnaire
