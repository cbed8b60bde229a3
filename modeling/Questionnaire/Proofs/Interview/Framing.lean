import Questionnaire.Proofs.Interview.Keeping

/-!
# What requests leave alone

Work on a session writes answers, plans and orders, and where the respondent is and how the survey
ended. It never touches the rest, whatever session it is done on: the plans may have been stored by
anyone, with cursors of any kind. So work keeps every property to which only the rest matters
(`FrameLaw`), and among these is which session it is and at which version (`frameLaw`).
-/

namespace Questionnaire

open Flow

/-- A property of sessions to which neither plans nor answers matter, nor whatever sessions that are
alike may differ in. -/
structure FrameLaw (P : Session → Prop) : Prop where
  plans : ∀ {s} plans, P s → P { s with plans := plans }
  answers : ∀ {s} responses, P s → P { s with responses := responses }
  same : ∀ {s t}, P s → s.Alike t → P t

/-- Which session it is does not change, nor at which version it was loaded. -/
theorem frameLaw (id : Id) (version : Value) :
    FrameLaw fun s => s.id = id ∧ s.version = version where
  plans _ hs := hs
  answers _ hs := hs
  same hs h := ⟨h.id.trans hs.1, h.version.trans hs.2⟩

namespace FrameLaw

variable {P : Session → Prop} (law : FrameLaw P)
include law

/-! ## Navigation -/

section Navigation
variable {nav : Navigator}

theorem skipStale (b : Battery) (p : LoopPlan) : Preserves P (nav.skipStale b p) := by
  refine .bind .ofResult fun _ => .ite .pure <| .bind .session fun _ => .bind .logAll fun _ => ?_
  refine .bind .ofResult fun _ => .bind .demandKeys fun _ => .bind .logAll fun _ => ?_
  refine .bind (.update fun _ hs => law.plans _ hs) fun _ => ?_
  split
  · exact .pure
  · exact .throw

theorem enter (b : Battery) : Preserves P (nav.enter b) := by
  refine .bind (Navigator.preserves_planOf b.id) fun o => ?_
  split
  · exact .bind .ofResult fun _ => .bind (law.skipStale b _) fun _ => .pure
  · refine .bind .session fun _ => .bind (Navigator.preserves_newPlan _ _) fun _ => ?_
    exact .bind (.update fun _ hs => law.plans _ hs) fun _ => .pure

theorem arriveWithin : ∀ (fuel : Nat) (id : Option Id), Preserves P (nav.arriveWithin fuel id)
  | 0, none | _ + 1, none => .pure
  | 0, some _ => .throw
  | fuel + 1, some id => by
    refine .bind (.of_reads (Navigator.reads_roleOf id)) fun o => ?_
    split
    · next b =>
      refine .bind (law.enter b) fun _ => .bind .ofResult fun _ => .ite ?_ <| .bind .log fun _ => ?_
      · exact .bind .ofResult fun _ => .pure
      · exact .bind (Navigator.preserves_nextInOrder _) fun id => arriveWithin fuel id
    · exact .bind (Navigator.preserves_iterationOf id) fun _ => .pure

theorem arrive (id : Option Id) : Preserves P (nav.arrive id) := law.arriveWithin _ id

theorem firstPage : Preserves P nav.firstPage := by
  unfold Navigator.firstPage
  split
  · exact .pure
  · exact .bind (Navigator.preserves_isShown _) fun _ => .ite (law.arrive _) <|
      .bind (Navigator.preserves_nextInOrder _) fun _ => law.arrive _

theorem continueLoop (id : Id) : Preserves P (nav.continueLoop id) := by
  refine .bind (.of_reads (Navigator.reads_roleOf id)) fun o => ?_
  split
  · next b =>
    refine .bind (Navigator.preserves_planOf b.id) fun o => ?_
    split
    · exact .pure
    · refine .bind .ofResult fun _ => .ite .pure <| .bind .ofResult fun _ => ?_
      refine .bind (.update fun _ hs => law.plans _ hs) fun _ => ?_
      refine .bind (law.skipStale b _) fun _ => .bind .ofResult fun _ => ?_
      exact .ite (.bind .log fun _ => .pure) <| .bind .log fun _ => .bind .ofResult fun _ => .pure
  · exact .pure

theorem nextPage (id : Id) : Preserves P (nav.nextPage id) := by
  refine .bind (Navigator.preserves_around id) fun _ => .bind (law.continueLoop id) fun o => ?_
  split
  · exact .pure
  · exact .bind (Navigator.preserves_nextInOrder id) fun _ => law.arrive _

theorem stepBack (id : Id) : Preserves P (nav.stepBack id) := by
  refine .bind (.of_reads (Navigator.reads_roleOf id)) fun o => ?_
  split
  · next b =>
    refine .bind (Navigator.preserves_planOf b.id) fun o => ?_
    split
    · exact .pure
    · refine .bind .ofResult fun o => ?_
      split
      · exact .pure
      · exact .bind (.update fun _ hs => law.plans _ hs) fun _ => .bind .ofResult fun _ => .pure
  · exact .pure

theorem previousPage (id : Id) : Preserves P (nav.previousPage id) := by
  refine .bind (Navigator.preserves_around id) fun _ => .bind (law.stepBack id) fun o => ?_
  split
  · exact .pure
  · exact .bind (Navigator.preserves_previousInOrder id) fun _ =>
      Navigator.preserves_arriveBackWithin _ _

theorem closeIteration (id : Id) : Preserves P (nav.closeIteration id) := by
  refine .bind (.of_reads (Navigator.reads_roleOf id)) fun o => ?_
  split
  · next b =>
    refine .bind (Navigator.preserves_planOf b.id) fun o => ?_
    split
    · exact .pure
    · exact .bind .ofResult fun _ => .ite .pure <|
        .bind (.update fun _ hs => law.plans _ hs) fun _ => .bind .log fun _ => .pure
  · exact .pure

end Navigation

/-! ## Requests -/

section Requests
variable {iv : Interview}

theorem follow (id : Id) (outcome : JumpOutcome) : Keeps P (iv.follow id outcome) := by
  refine .ite (.bind (Interview.keeps_terminate law.same outcome) fun _ => Interview.keeps_position)
    ?_
  split
  · exact .bind .log fun _ => (law.arrive _).keeps
  · exact .bind .log fun _ => .pure

theorem leave (id page : Id) : Keeps P (iv.leave id page) := by
  refine .bind Navigator.keeps_announce fun _ => ?_
  refine .bind (Navigator.preserves_continuesLoop page).keeps fun _ =>
    .ite (law.nextPage page).keeps ?_
  refine .bind (Interview.keeps_jumpOnLeaving page) fun o => ?_
  split
  · exact (law.nextPage page).keeps
  · exact .bind (law.closeIteration page).keeps fun _ => law.follow id _

/-- The work that starts a session. -/
theorem begin : Keeps P iv.begin :=
  .bind Navigator.keeps_announce fun _ => .bind law.firstPage.keeps fun _ =>
    .bind (Interview.keeps_settle law.same _) fun _ => .bind .session fun _ => .log

theorem forward (id : Id) (fromPage : Option Id) : Keeps P (iv.forward id fromPage) := by
  rw [Interview.forward_eq]
  refine Interview.onCurrentPage_ensures Interview.keeps_locate (fun page => ?_) fromPage
  refine .bind ((law.leave id page).mono (fun _ hs => hs.1) fun _ _ hs => hs) fun landing => ?_
  exact .bind (Interview.keeps_settle law.same landing) fun _ => Keeps.pure

theorem backward (fromPage : Option Id) : Keeps P (iv.backward fromPage) := by
  rw [Interview.backward_eq]
  refine Interview.onCurrentPage_ensures Interview.keeps_locate (fun page => ?_) fromPage
  refine .bind (Navigator.keeps_announce.mono (fun _ hs => hs.1) fun _ _ hs => hs) fun _ => ?_
  refine .bind (law.previousPage page).keeps fun landing => ?_
  split
  · exact Keeps.pure
  · exact .bind (Keeps.update fun _ hs => law.same hs ⟨rfl, rfl, rfl, rfl, rfl⟩) fun _ => Keeps.pure

theorem record (id questionId : Id) (answer : Value) :
    Keeps P (iv.record id questionId answer) := by
  refine Interview.keeps_record_of ?_ (fun _ _ _ hs => law.answers _ hs)
    (fun _ _ hs => law.plans _ hs) answer
  refine Interview.keeps_recorded_of (fun _ => True)
    ((Jump.keeps_ofAnswer questionId).mono (fun _ hs => hs) fun _ _ hs => ⟨hs, fun _ _ => trivial⟩)
    (fun o _ _ => Interview.keeps_terminate law.same o)
    (fun _ hs => law.same hs ⟨rfl, rfl, rfl, rfl, rfl⟩) id

theorem render (id : Id) (page : Option Id) : Keeps P (iv.render id page) :=
  Interview.keeps_rendering (fun _ _ hs => law.same hs ⟨rfl, rfl, rfl, rfl, rfl⟩) id page

end Requests

end FrameLaw

end Questionnaire
