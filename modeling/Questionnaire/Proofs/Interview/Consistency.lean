import Questionnaire.Proofs.Interview.Position
import Questionnaire.Proofs.Interview.Runs
import Questionnaire.Proofs.Route.Faults

/-!
# What a session tells about itself

A session tells in several places where the respondent is and how the survey ended: by its current
page and the pages before it, by the marks for its end, and by its plans. These agree with each
other in every session that requests lead to (`Session.Consistent`, `Session.Seated`).

Each way of leaving a page ends in one of three states (`Interview.Led`): the session is open and
past the last page, it is open and on a page that the answer names with its iteration, or an answer
has ended it. In each of them the session is put where the answer says (`Interview.settle_led`), so
the answer is what a request for the position would be told (`Interview.forward_told`,
`Interview.backward_told`).
-/

namespace Questionnaire

open Flow

namespace Session

/-- A session whose end and whose pages are recorded consistently: an answer ended the survey only
if the survey ended, there is a reason exactly if an answer did, and the history is one of pages. -/
structure Recorded (survey : Survey) (s : Session) : Prop where
  completed : s.isTerminated = true → s.isCompleted = true
  reason : s.terminationReason.isSome = s.isTerminated
  given : ∀ v, s.terminationReason = some v → v.isTruthy = true
  history : ∀ page ∈ s.history, page ∈ survey.pages.map Page.id

/-- A recorded session that is nowhere only if the survey ended, and whose current page is a page of
the survey and the last one of its history. -/
structure Consistent (survey : Survey) (s : Session) : Prop extends Recorded survey s where
  placed : s.currentPage = none → s.isCompleted = true
  page : ∀ page, s.currentPage = some page →
    page ∈ survey.pages.map Page.id ∧ s.history.getLast? = some page

/-- A session whose plans are those of accepted batteries, each under the id of its battery and with
its cursor among its items. -/
def Seated (survey : Survey) (s : Session) : Prop :=
  ∀ id p, s.plan? id = some p → ∃ b, survey.Accepts b ∧ id.agrees b.id = true ∧
    p.batteryId = b.id ∧ ∃ c, p.CursorAt c

variable {survey : Survey} {s : Session} {id : Id} {p : LoopPlan}

theorem Seated.setPlan (h : s.Seated survey) {b : Battery} (hb : survey.Accepts b)
    (hid : id.agrees b.id = true) (hp : p.batteryId = b.id) {c : Nat} (hc : p.CursorAt c) :
    (s.setPlan id p).Seated survey := by
  intro j q hq
  rw [plan?_setPlan] at hq
  split at hq
  · next hj =>
    cases hq
    exact ⟨b, hb, Value.agrees_trans hj hid, hp, c, hc⟩
  · exact h j q hq

theorem Seated.dropPlan (h : s.Seated survey) (id : Id) : (s.dropPlan id).Seated survey := by
  intro j q hq
  rw [plan?_dropPlan] at hq
  split at hq
  · cases hq
  · exact h j q hq

theorem seated_new (survey : Survey) (id surveyId : Id) (embedded : Register Value) :
    (new id surveyId embedded).Seated survey := by
  intro j p hp
  have hp : (∅ : Register LoopPlan).get? j = some p := hp
  rw [Register.get?_empty] at hp
  cases hp

theorem recorded_new (survey : Survey) (id surveyId : Id) (embedded : Register Value) :
    (new id surveyId embedded).Recorded survey where
  completed h := nomatch h
  reason := rfl
  given _ h := nomatch h
  history _ h := nomatch h

/-- Plans go on to be those of accepted batteries. -/
theorem seatedLaw (survey : Survey) : PlanLaw survey (Seated survey) where
  cursor hs _ hp := (hs _ _ hp).elim fun _ h => h.2.2.2
  made hs hb _ hp := hp.cursor.elim fun _ hc =>
    hs.setPlan hb (Value.agrees_self _) hp.batteryId hc
  moved hs _ hp _ hn _ := by
    obtain ⟨b, hb, hid, hbattery, -⟩ := hs _ _ hp
    exact hs.setPlan hb hid hbattery (LoopPlan.cursorAt_moved hn)
  same hs h := fun id p hp => hs id p (by rwa [plan?, ← h.plans])

/-- A session that has not ended was not ended by an answer. -/
theorem Recorded.open (h : s.Recorded survey) (hopen : s.isCompleted = false) :
    s.isTerminated = false ∧ s.terminationReason = none := by
  have hterminated : s.isTerminated = false := by
    cases hs : s.isTerminated with
    | false => rfl
    | true => rw [h.completed hs] at hopen; cases hopen
  exact ⟨hterminated, Option.not_isSome_iff_eq_none.1 (by rw [h.reason, hterminated]; decide)⟩

/-- A recorded session is consistent once it is put past the last page. -/
theorem Recorded.finish (h : s.Recorded survey) :
    Consistent survey { s with completed := .bool true, currentPage := none } where
  completed _ := rfl
  reason := h.reason
  given := h.given
  history := h.history
  placed _ := rfl
  page _ hp := nomatch hp

/-- A recorded session is consistent once it is put on a page of the survey. -/
theorem Recorded.moveTo (h : s.Recorded survey) (hid : id ∈ survey.pages.map Page.id) :
    (s.moveTo (some id)).Consistent survey where
  completed := h.completed
  reason := h.reason
  given := h.given
  history page hp := by
    rcases List.mem_append.1 hp with hp | hp
    · exact h.history page hp
    · exact List.mem_singleton.1 hp ▸ hid
  placed hp := nomatch hp
  page page hp := by
    cases hp
    exact ⟨hid, List.getLast?_concat⟩

/-- A session that an answer ends is recorded. -/
theorem Recorded.terminated (h : s.Recorded survey) {o : JumpOutcome} (ho : o.Sound survey)
    (hends : o.terminates = true) :
    Recorded survey { s with completed := .bool true, terminated := .bool true,
                             terminationReason := o.terminationReason } where
  completed _ := rfl
  reason := hends
  given := ho.reason
  history := h.history

/-- Nothing else matters to whether a session is consistent. -/
theorem Consistent.same {t : Session} (h : s.Consistent survey)
    (hcompleted : t.completed = s.completed) (hterminated : t.terminated = s.terminated)
    (hreason : t.terminationReason = s.terminationReason)
    (hpage : t.currentPage = s.currentPage) (hhistory : t.history = s.history) :
    t.Consistent survey where
  completed := by
    rw [isTerminated, isCompleted, hterminated, hcompleted]
    exact h.completed
  reason := by
    rw [isTerminated, hterminated, hreason]
    exact h.reason
  given := by
    rw [hreason]
    exact h.given
  history := by
    rw [hhistory]
    exact h.history
  placed := by
    rw [isCompleted, hpage, hcompleted]
    exact h.placed
  page := by
    rw [hpage, hhistory]
    exact h.page

/-- A consistent session stays consistent when its survey ends. -/
theorem Consistent.complete (h : s.Consistent survey) :
    Consistent survey { s with completed := .bool true } where
  completed _ := rfl
  reason := h.reason
  given := h.given
  history := h.history
  placed _ := rfl
  page := h.page

end Session

namespace Interview

variable {iv : Interview} {s u : Session} {l : Landing} {p : Page}

/-! ## The position, read off the session -/

theorem positionIn_of_completed (h : s.isCompleted = true) :
    iv.positionIn s = .ok (endedPosition s) := by
  unfold positionIn
  rw [h, if_pos rfl]

/-- A session that has not ended is on the page to which it was moved. -/
theorem positionIn_moveTo (h : s.isCompleted = false) (id : Id) :
    iv.positionIn (s.moveTo (some id)) = (iv.navigator.iterationIn id s).map (.on id) := by
  have hopen : (s.moveTo (some id)).isCompleted = false := h
  unfold positionIn
  rw [hopen]
  rfl

/-! ## Where leaving a page leads -/

/-- A session that has not ended, whose end and pages are recorded and whose plans are seated. -/
def Underway (iv : Interview) (s : Session) : Prop :=
  (s.Recorded iv.survey ∧ s.isCompleted = false) ∧ s.Seated iv.survey

/-- Where an open session was led by leaving a page. -/
def Led (iv : Interview) (l : Landing) (s : Session) : Prop :=
  (iv.Underway s ∧ (l = .finished ∨ iv.navigator.OnPage s l)) ∨
    ((s.Recorded iv.survey ∧ s.isCompleted = true) ∧ s.Seated iv.survey) ∧ l = endedPosition s

theorem underwayLaw (iv : Interview) : CursorLaw iv.survey (fun _ => True) iv.Underway :=
  (Session.seatedLaw iv.survey).toCursorLaw.beside fun _ _ _ h =>
    ⟨⟨h.1.completed, h.1.reason, h.1.given, h.1.history⟩, h.2⟩

/-- A session that is consistent and whose plans are seated. -/
def Orderly (iv : Interview) (s : Session) : Prop := s.Consistent iv.survey ∧ s.Seated iv.survey

theorem orderlyLaw (iv : Interview) : CursorLaw iv.survey (fun _ => True) iv.Orderly :=
  (Session.seatedLaw iv.survey).toCursorLaw.beside fun _ _ _ h => h.same rfl rfl rfl rfl rfl

theorem Orderly.underway (h : iv.Orderly s) (hopen : s.isCompleted = false) : iv.Underway s :=
  ⟨⟨h.1.toRecorded, hopen⟩, h.2⟩

theorem mem_pageIds (hp : p ∈ iv.navigator.pages) : p.id ∈ iv.survey.pages.map Page.id :=
  List.mem_map_of_mem ((sortedBy_perm Page.index iv.survey.pages).mem_iff.1 hp)

theorem exists_page {id : Id} (h : id ∈ iv.survey.pages.map Page.id) :
    ∃ p ∈ iv.navigator.pages, p.id = id := by
  obtain ⟨p, hp, rfl⟩ := List.mem_map.1 h
  exact ⟨p, (sortedBy_perm Page.index iv.survey.pages).mem_iff.2 hp, rfl⟩

/-- The position of a session that has ended. -/
theorem position_of_ended {P : Session → Prop} :
    Ensures (fun s => P s ∧ s.isCompleted = true) iv.position fun l s =>
      (P s ∧ s.isCompleted = true) ∧ l = endedPosition s := by
  refine .bind .session fun t =>
    .ite (fun _ => .pure fun s hs => ⟨hs.1, hs.2 ▸ rfl⟩) fun hopen => ?_
  exact .given (p := False) (fun s hs => by rw [hs.2, hs.1.2] at hopen; cases hopen) False.elim

/-- The session is put where it was led, and tells so. -/
theorem settle_led (h : iv.navigator.Oriented) (l : Landing) :
    Ensures (iv.Led l) (settle l) fun _ s =>
      iv.Orderly s ∧ iv.positionIn s = .ok l := by
  rintro d u d' hled hd
  rcases hled with ⟨⟨⟨hrecorded, hopen⟩, hseated⟩, rfl | ⟨p, hp, i, rfl, hi⟩⟩ |
    ⟨⟨⟨hrecorded, hcompleted⟩, hseated⟩, rfl⟩
  · cases hd
    obtain ⟨hterminated, hreason⟩ := hrecorded.open hopen
    refine ⟨⟨hrecorded.finish, hseated⟩, (positionIn_of_completed rfl).trans ?_⟩
    rw [endedPosition, hreason]
    exact congrArg (fun b => Except.ok (Landing.mk none none true b none)) hterminated
  · cases hd
    have hgiven : (Landing.on p.id i).pageId = some p.id := h.inOrder.given?_id hp
    rw [hgiven]
    refine ⟨⟨hrecorded.moveTo (mem_pageIds hp), hseated⟩, (positionIn_moveTo hopen _).trans ?_⟩
    rw [hi]
    rfl
  · cases hd
    exact ⟨⟨hrecorded.finish, hseated⟩, rfl⟩

theorem firstOutcome_sound (htyped : iv.survey.Typed) : ∀ questions : List Question,
    Ensures (fun _ => True) (iv.firstOutcome questions) fun o _ =>
      ∀ x, o = some x → x.Sound iv.survey
  | [] => .pure fun _ _ _ hx => nomatch hx
  | q :: r => by
    refine .bind (Jump.ofAnswer_sound htyped q.id) fun o => ?_
    split
    · exact .pure fun _ ho => ho
    · exact (firstOutcome_sound htyped r).mono (fun _ _ => trivial) fun _ _ hs => hs

/-- A jump on leaving a page can be followed. -/
theorem jumpOnLeaving_sound {P : Session → Prop} (htyped : iv.survey.Typed) (pageId : Id) :
    Ensures P (iv.jumpOnLeaving pageId) fun o _ => ∀ x, o = some x → x.Sound iv.survey := by
  refine .bind (Q := fun _ _ => True) (fun _ _ _ _ _ => trivial) fun _ => ?_
  refine .bind (firstOutcome_sound htyped _) fun o => ?_
  split
  · exact .pure fun _ ho => ho
  · exact Jump.ofPage_sound htyped pageId

/-- Ending a session by an answer keeps what no end matters to. -/
theorem terminate_ends {o : JumpOutcome} (ho : o.Sound iv.survey) (hends : o.terminates = true) :
    Ensures (fun s => s.Recorded iv.survey ∧ s.Seated iv.survey) (terminate o) fun _ s =>
      (s.Recorded iv.survey ∧ s.Seated iv.survey) ∧ s.isCompleted = true :=
  .bind Keeps.session fun _ => .bind Keeps.log fun _ => .update fun _ hs =>
    ⟨⟨hs.1.terminated ho hends, hs.2⟩, rfl⟩

/-- The answer to a request for the position, or to one that is answered by it. -/
theorem locate_told : Ensures (· = u) iv.locate fun a s =>
    s = u ∧ iv.whereabouts s = .ok a.reply :=
  .bind (.of_reads iv.reads_whereabouts) fun _ => .pure fun _ hs => hs

section Leaving
variable (h : iv.navigator.Oriented)
include h

theorem follow_led (id : Id) {o : JumpOutcome} (ho : o.Sound iv.survey) :
    Ensures iv.Underway (iv.follow id o) iv.Led := by
  refine .ite (fun hends => ?_) fun _ => ?_
  · refine .bind ((terminate_ends ho hends).mono (fun s hs => ⟨hs.1.1, hs.2⟩) fun _ _ hs => hs)
      fun _ => position_of_ended.mono (fun _ hs => hs) fun _ _ hs => ?_
    exact .inr ⟨⟨⟨hs.1.1.1, hs.1.2⟩, hs.1.1.2⟩, hs.2⟩
  · split
    · next page hpage =>
      obtain ⟨p, hp, rfl⟩ := exists_page (ho.page page hpage)
      have hkeeps : Keeps iv.Underway (iv.navigator.arrive (some p.id)) :=
        (Navigator.preserves_arrive iv.underwayLaw.arrival proper_navigator _).keeps
      have hknown : iv.navigator.Known (some p.id) := fun j hj => ⟨p, hp, Option.some.inj hj⟩
      exact .bind Keeps.log fun _ => (hkeeps.and (h.arrive_onPage hknown)).mono (fun _ hs => hs)
        fun _ _ => .inl
    · exact .bind Keeps.log fun _ => .pure fun _ hs => .inl ⟨hs, .inl rfl⟩

theorem nextPage_led (hp : p ∈ iv.navigator.pages) :
    Ensures iv.Underway (iv.navigator.nextPage p.id) iv.Led := by
  have hkeeps : Keeps iv.Underway (iv.navigator.nextPage p.id) :=
    (Navigator.preserves_nextPage iv.underwayLaw proper_navigator p.id).keeps
  exact (hkeeps.and (h.nextPage_onPage hp)).mono (fun _ hs => hs) fun _ _ => .inl

/-- What leaving a page forward leads to. -/
theorem leave_led (id : Id) (hp : p ∈ iv.navigator.pages) :
    Ensures iv.Underway (iv.leave id p.id) iv.Led := by
  refine .bind Navigator.keeps_announce fun _ => ?_
  refine .bind (Navigator.preserves_continuesLoop p.id).keeps fun _ => ?_
  refine .ite (fun _ => nextPage_led h hp) fun _ => ?_
  have hjump : Ensures iv.Underway (iv.jumpOnLeaving p.id) fun o s =>
      iv.Underway s ∧ ∀ x, o = some x → x.Sound iv.survey :=
    (keeps_jumpOnLeaving p.id).and (jumpOnLeaving_sound h.typed p.id)
  refine .bind hjump fun o => .given (fun _ hs => hs.2) fun ho => .mono (P := iv.Underway) ?_
    (fun _ hs => hs.1) fun _ _ hl => hl
  split
  · exact nextPage_led h hp
  · next o =>
    exact .bind (Navigator.preserves_closeIteration iv.underwayLaw proper_navigator p.id).keeps
      fun _ => follow_led h id (ho _ rfl)

/-! ## Requests -/

theorem begin_orderly (id : Id) (embedded : Register Value) :
    Ensures (· = .new id iv.survey.id embedded) iv.begin fun _ => iv.Orderly := by
  have hfirst : Ensures iv.Underway iv.navigator.firstPage iv.Led :=
    (Navigator.preserves_firstPage iv.underwayLaw.arrival proper_navigator).keeps.and
      h.firstPage_onPage |>.mono (fun _ hs => hs) fun _ _ => .inl
  refine .bind (Navigator.keeps_announce (P := iv.Underway) |>.mono ?_ fun _ _ hs => hs) fun _ => ?_
  · rintro _ rfl
    exact ⟨⟨Session.recorded_new _ _ _ _, rfl⟩, Session.seated_new _ _ _ _⟩
  · refine .bind hfirst fun l => .bind ((settle_led h l).mono (fun _ hs => hs) fun _ _ hs => hs.1)
      fun _ => .bind Keeps.session fun _ => Keeps.log

/-- A request to leave a page forward is answered by where the session is found afterwards. -/
theorem forward_told (hu : iv.Orderly u) (id : Id) (fromPage : Option Id) :
    Ensures (· = u) (iv.forward id fromPage) fun a s =>
      (iv.Orderly s ∧ (a.commit = false → s = u)) ∧ iv.whereabouts s = .ok a.reply := by
  rw [forward_eq]
  refine onCurrentPage_ensures ?_
    (fun page => .given (fun _ hs => hs.1 ▸ hs.2) fun ⟨hopen, hpage⟩ => ?_) fromPage
  · exact (locate_told (u := u)).mono (fun _ hs => hs)
      fun _ _ hs => ⟨⟨hs.1 ▸ hu, fun _ => hs.1⟩, hs.2⟩
  · obtain ⟨p, hp, rfl⟩ := exists_page (hu.1.page page hpage).1
    have hleave := ((leave_led h id hp).startingAt (hu.underway hopen)).and
      (leave_announced id p.id)
    refine .bind (hleave.mono (fun _ hs => hs.1) fun _ _ hs => hs) fun l =>
      .given (fun _ hs => hs.2) fun hann => ?_
    refine .bind ((settle_led h l).mono (fun _ hs => hs.1) fun _ _ hs => hs) fun _ => ?_
    refine .pure fun s hs => ⟨⟨hs.1, fun hc => (nomatch hc)⟩, ?_⟩
    rw [whereabouts_eq hann, hs.2]

/-- A request to leave a page backward that leads to a page is answered by where the session is
found afterwards. -/
theorem backward_told (hu : iv.Orderly u) (fromPage : Option Id) :
    Ensures (· = u) (iv.backward fromPage) fun a s =>
      iv.Orderly s ∧ (a.reply.pageId ≠ none →
        (a.commit = false → s = u) ∧ iv.whereabouts s = .ok a.reply) := by
  rw [backward_eq]
  refine onCurrentPage_ensures ?_
    (fun page => .given (fun _ hs => hs.1 ▸ hs.2) fun ⟨hopen, hpage⟩ => ?_) fromPage
  · exact (locate_told (u := u)).mono (fun _ hs => hs)
      fun _ _ hs => ⟨hs.1 ▸ hu, fun _ => ⟨fun _ => hs.1, hs.2⟩⟩
  · obtain ⟨p, hp, rfl⟩ := exists_page (hu.1.page page hpage).1
    have hback : Ensures (· = u) (iv.navigator.previousPage p.id) fun l s =>
        (iv.Orderly s ∧ iv.Underway s) ∧ (l = .nowhere ∨ iv.navigator.OnPage s l) := by
      have horderly : Keeps iv.Orderly (iv.navigator.previousPage p.id) :=
        (Navigator.preserves_previousPage iv.orderlyLaw proper_navigator fun _ _ => trivial).keeps
      have hunderway : Keeps iv.Underway (iv.navigator.previousPage p.id) :=
        (Navigator.preserves_previousPage iv.underwayLaw proper_navigator
          fun _ _ => trivial).keeps
      exact ((horderly.startingAt hu).and (hunderway.startingAt (hu.underway hopen))).and
        (h.previousPage_onPage hp)
    refine .bind Navigator.announce_ensures fun _ => .given (fun _ hs => hs.2) fun hann => ?_
    refine .bind (hback.mono (fun _ hs => hs.1.1) fun _ _ hs => hs) fun l => ?_
    split
    · next hnone => exact .pure fun s hs => ⟨hs.1.1, fun hsome => absurd hnone hsome⟩
    · next id hid =>
      refine .bind (.update (Q := fun _ s => iv.Orderly s ∧ iv.positionIn s = .ok l)
        fun s hs => ?_) fun _ => .pure fun s hs =>
          ⟨hs.1, fun _ => ⟨fun hc => (nomatch hc), by rw [whereabouts_eq hann, hs.2]⟩⟩
      obtain ⟨⟨-, ⟨hrecorded, hopen⟩, hseated⟩, rfl | ⟨q, hq, i, rfl, hi⟩⟩ := hs
      · cases hid
      · have hgiven : (Landing.on q.id i).pageId = some q.id :=
          h.inOrder.given?_id hq
        cases hgiven.symm.trans hid
        refine ⟨⟨hrecorded.moveTo (mem_pageIds hq), hseated⟩, ?_⟩
        rw [positionIn_moveTo hopen, hi]
        rfl

theorem keeps_orderly_record (id questionId : Id) (answer : Value) :
    Keeps iv.Orderly (iv.record id questionId answer) := by
  have hjump : Ensures iv.Orderly (Jump.ofAnswer iv.survey iv.quiet questionId) fun o s =>
      iv.Orderly s ∧ ∀ x, o = some x → x.Sound iv.survey :=
    (Jump.keeps_ofAnswer questionId).and (Jump.ofAnswer_sound h.typed questionId)
  refine keeps_record_of (keeps_recorded_of _ hjump (fun o ho hends => ?_) (fun s hs => ?_) id)
    (fun s _ _ hs => ⟨hs.1.same rfl rfl rfl rfl rfl, hs.2⟩)
    (fun s j hs => ⟨hs.1.same rfl rfl rfl rfl rfl, hs.2.dropPlan j⟩) answer
  · refine .bind .session fun _ => .bind .log fun _ => .update fun s hs => ?_
    exact ⟨⟨hs.1.toRecorded.terminated ho hends, fun _ => rfl, hs.1.page⟩, hs.2⟩
  · exact ⟨hs.1.complete, hs.2⟩

/-- The work of every request keeps sessions orderly. -/
theorem Asks.keeps_orderly {α : Type} {work : Flow (Decision α)} {id : Id}
    (hasks : iv.Asks id work) : Keeps iv.Orderly work := by
  cases hasks with
  | record => exact keeps_orderly_record h _ _ _
  | offered hoffer =>
    cases hoffer with
    | locate => exact keeps_locate
    | forward fromPage =>
      exact fun d a d' hd hperform => (forward_told h hd id fromPage d a d' rfl hperform).1.1
    | backward fromPage =>
      exact fun d a d' hd hperform => (backward_told h hd fromPage d a d' rfl hperform).1
    | record => exact keeps_orderly_record h _ _ _
    | render page =>
      exact keeps_rendering (fun _ _ hs => ⟨hs.1.same rfl rfl rfl rfl rfl, hs.2⟩) id page
    | report batteryId => exact keeps_report batteryId

end Leaving

/-! ## Runs -/

variable {σ₀ σ : Store} {ids : List Id} {id : Id}

/-- All sessions that a run leads to from an empty store are orderly. -/
theorem Run.orderly (h : iv.navigator.Oriented) (hempty : ∀ id, σ₀.find? id = none)
    (hrun : iv.Run σ₀ ids σ) : Everywhere iv.Orderly σ :=
  hrun.everywhere (fun _ _ hs => ⟨hs.1.same rfl rfl rfl rfl rfl, hs.2⟩)
    (fun g => @begin_orderly (iv.drawing g) h)
    (fun {g _ _ _} hasks => @Asks.keeps_orderly (iv.drawing g) h _ _ _ hasks) (.of_empty hempty)

end Interview

end Questionnaire
