import Questionnaire.Interview
import Questionnaire.Proofs.Route.Jumps
import Questionnaire.Proofs.Route.Keeping

/-!
# What requests keep

Besides navigation, a request reads the session, tells where it is and how it ended, and draws
orders. None of this matters to the plans and the answers, so a request keeps what navigation keeps
(`PlanLaw`); only a new answer can break it.
-/

namespace Questionnaire

open Flow

theorem RoleTable.keeps_announceAll {P : Session → Prop} {survey : Survey} :
    ∀ {t : RoleTable} {l : List Battery}, Keeps P (announceAll survey t l)
  | _, [] => .pure
  | _, _ :: _ => .bind .ofResult fun _ => .bind .logAll fun _ => keeps_announceAll

theorem Navigator.keeps_announce {P : Session → Prop} {nav : Navigator} : Keeps P nav.announce :=
  .bind .demandComparable fun _ => .bind .demandKeys fun _ =>
    .bind .demandComparable fun _ => RoleTable.keeps_announceAll

namespace Interview

variable {iv : Interview} {P : Session → Prop}

/-! ## Reading -/

theorem keeps_position : Keeps P iv.position := by
  refine .bind .session fun s => .ite .pure ?_
  split
  · exact .pure
  · exact .bind Navigator.keeps_announce fun _ => .bind (Navigator.preserves_iterationOf _).keeps
      fun _ => .pure

theorem keeps_locate : Keeps P iv.locate := .bind keeps_position fun _ => .pure

theorem keeps_warnOfDuplicate (s : Session) (fromPage : Option Id) :
    Keeps P (warnOfDuplicate s fromPage) := by
  unfold warnOfDuplicate
  split
  · exact .pure
  · exact .log

theorem keeps_couldSee (pageId : Id) (q : Question) : Keeps P (iv.couldSee pageId q) := by
  refine .bind .session fun _ => ?_
  split
  · exact .bind .pure fun _ => .ite (Context.keeps_shows P _ _ _) .pure
  · exact .bind (Context.keeps_shows P _ _ _) fun _ => .ite (Context.keeps_shows P _ _ _) .pure

theorem keeps_answeredQuestions (pageId : Id) : Keeps P (iv.answeredQuestions pageId) := by
  refine .bind .session fun _ => .bind .demandComparable fun _ =>
    Renderer.keeps_keep (fun q => ?_) _
  exact .bind .demandKeys fun _ => .bind .session fun _ => .ite (keeps_couldSee pageId q) .pure

theorem keeps_firstOutcome : ∀ questions : List Question, Keeps P (iv.firstOutcome questions)
  | [] => .pure
  | q :: r => by
    refine .bind (Jump.keeps_ofAnswer q.id) fun o => ?_
    split
    · exact .pure
    · exact keeps_firstOutcome r

theorem keeps_jumpOnLeaving (pageId : Id) : Keeps P (iv.jumpOnLeaving pageId) := by
  refine .bind (keeps_answeredQuestions pageId) fun _ => .bind (keeps_firstOutcome _) fun o => ?_
  split
  · exact .pure
  · exact Jump.keeps_first _

theorem keeps_report (batteryId : Id) : Keeps P (iv.report batteryId) := by
  refine .bind Navigator.keeps_announce fun _ => ?_
  refine .bind (.bind (Navigator.preserves_planOf batteryId).keeps fun o => ?_) fun _ => .pure
  split
  · exact .pure
  · exact .ofResult

/-! ## Moving and rendering -/

theorem proper_navigator : iv.navigator.Proper := Navigator.proper_ofSurvey _ _ _

section Alike
variable (hsame : ∀ {s t : Session}, P s → s.Alike t → P t)
include hsame

theorem keeps_settle (landing : Landing) : Keeps P (settle landing) := by
  refine .ite ?_ (.update fun s h => hsame h ⟨rfl, rfl, rfl, rfl, rfl⟩)
  exact .bind (.update fun s h => hsame h ⟨rfl, rfl, rfl, rfl, rfl⟩) fun _ =>
    .bind .session fun _ => .log

theorem keeps_terminate (outcome : JumpOutcome) : Keeps P (terminate outcome) :=
  .bind .session fun _ => .bind .log fun _ => .update fun _ h => hsame h ⟨rfl, rfl, rfl, rfl, rfl⟩

end Alike

/-- Rendering a page keeps what no order matters to. -/
theorem keeps_rendering (horders : ∀ s orders, P s → P { s with orders := orders }) (id : Id)
    (page : Option Id) : Keeps P (iv.render id page) := by
  refine .bind .session fun s => ?_
  split
  · exact .throw
  · refine .bind Navigator.keeps_announce fun _ => ?_
    refine .bind (Navigator.preserves_iterationOf _).keeps fun _ => ?_
    exact .bind (Renderer.keeps_page horders _ _) fun _ => .bind .session fun _ => .pure

/-! ## Requests to leave the current page -/

/-- Work on the current page of an open session. A request that names another page, and any request
once the session has ended, is answered by the position. -/
def onCurrentPage (iv : Interview) (fromPage : Option Id) (work : Id → Flow (Decision Landing)) :
    Flow (Decision Landing) := do
  let s ← Flow.session
  if isDuplicate s fromPage then
    warnOfDuplicate s fromPage
    iv.locate
  else
    match s.isCompleted, s.currentPage with
    | false, some page => work page
    | _, _ => iv.locate

/-- Leaves a page forward. -/
def advance (iv : Interview) (id page : Id) : Flow (Decision Landing) := do
  let landing ← iv.leave id page
  settle landing
  pure ⟨landing, true⟩

/-- Leaves a page backward. -/
def retreat (iv : Interview) (page : Id) : Flow (Decision Landing) := do
  iv.navigator.announce
  let landing ← iv.navigator.previousPage page
  match landing.pageId with
  | none => pure ⟨landing, false⟩
  | some p =>
    Flow.update fun s => s.moveTo (some p)
    pure ⟨landing, true⟩

theorem forward_eq (iv : Interview) (id : Id) (fromPage : Option Id) :
    iv.forward id fromPage = iv.onCurrentPage fromPage (iv.advance id) := rfl

theorem backward_eq (iv : Interview) (fromPage : Option Id) :
    iv.backward fromPage = iv.onCurrentPage fromPage iv.retreat := rfl

/-- What telling the position and work on the current page of an open session ensure. -/
theorem onCurrentPage_ensures {Q : Decision Landing → Session → Prop}
    {work : Id → Flow (Decision Landing)} (hlocate : Ensures P iv.locate Q)
    (hwork : ∀ page, Ensures (fun s => P s ∧ s.isCompleted = false ∧ s.currentPage = some page)
      (work page) Q) (fromPage : Option Id) : Ensures P (iv.onCurrentPage fromPage work) Q := by
  refine .bind .session fun t => .ite (fun _ => ?_) fun _ => ?_
  · refine .bind (keeps_warnOfDuplicate t fromPage) fun _ => ?_
    exact hlocate.mono (fun _ hs => hs.1) fun _ _ hs => hs
  · split
    · next page hopen hpage =>
      exact (hwork page).mono (fun _ hs => ⟨hs.1, hs.2 ▸ hopen, hs.2 ▸ hpage⟩) fun _ _ hs => hs
    · exact hlocate.mono (fun _ hs => hs.1) fun _ _ hs => hs

/-- A request that names the current page is not taken for a duplicate. -/
theorem isDuplicate_current {s : Session} {current page : Id}
    (hcur : s.currentPage = some current) (hpage : page.equal current = true) :
    isDuplicate s (some page) = false := by
  simp [isDuplicate, hcur, hpage]

/-- On the current page of an open session, the work is done. -/
theorem perform_onCurrentPage {d : Desk} {page : Id} {fromPage : Option Id}
    (hcur : d.session.currentPage = some page) (hopen : d.session.isCompleted = false)
    (hdup : isDuplicate d.session fromPage = false) (work : Id → Flow (Decision Landing)) :
    (iv.onCurrentPage fromPage work).perform d = (work page).perform d := by
  unfold onCurrentPage
  rw [perform_bind, perform_session]
  simp only [hdup, hopen, hcur, Bool.false_eq_true, if_false]

/-! ## Recording answers -/

/-- What is left to do once an answer is recorded and the plans made from it are dropped. -/
def recorded (iv : Interview) (id questionId : Id) : Flow (Decision (Option JumpOutcome)) := do
  let outcome ← Jump.ofAnswer iv.survey iv.quiet questionId
  match outcome with
  | none => pure ()
  | some o =>
    if o.terminates then terminate o
    else if o.endsSurvey then
      Flow.log (.completedByRule id o.ruleId)
      Flow.update fun s => { s with completed := .bool true }
  pure ⟨outcome, true⟩

/-- What is left to do keeps what ending the survey keeps, by the outcomes that there may be. -/
theorem keeps_recorded_of (Good : JumpOutcome → Prop) {questionId : Id}
    (hjump : Ensures P (Jump.ofAnswer iv.survey iv.quiet questionId) fun o s =>
      P s ∧ ∀ x, o = some x → Good x)
    (hterminate : ∀ o, Good o → o.terminates = true → Keeps P (terminate o))
    (hcomplete : ∀ s, P s → P { s with completed := .bool true }) (id : Id) :
    Keeps P (iv.recorded id questionId) := by
  refine Ensures.bind hjump fun o => .given (fun _ hs => hs.2) fun ho =>
    .mono (P := P) ?_ (fun _ hs => hs.1) fun _ _ hs => hs
  split
  · exact Keeps.pure
  · next o =>
    refine .ite (fun hends => ?_) fun _ => .ite (fun _ => ?_) fun _ => Keeps.pure
    · exact (hterminate o (ho o rfl) hends).bind fun _ => .pure
    · exact Keeps.log.bind fun _ => (Keeps.update hcomplete).bind fun _ => .pure

/-- Recording an answer keeps what new answers, dropped plans and the rest of the work respect. -/
theorem keeps_record_of {id questionId : Id} (hrest : Keeps P (iv.recorded id questionId))
    (hrespond : ∀ s questionId answer, P s → P (s.respond questionId answer))
    (hdrop : ∀ s batteryId, P s → P (s.dropPlan batteryId)) (answer : Value) :
    Keeps P (iv.record id questionId answer) := by
  refine .bind .demandKeys fun _ => .bind .session fun _ => .bind (.update fun s hs =>
    hrespond s _ _ hs) fun _ => .ite ?_ hrest
  refine .bind Navigator.keeps_announce fun _ => Ensures.bind (Q := fun _ => P) ?_ fun _ => hrest
  exact (Navigator.resetAll_ensures hdrop).mono (fun _ hs => hs) fun _ _ hs => hs.1

section Cursor
variable (law : CursorLaw iv.survey (fun _ => True) P)
include law

/-- Leaving by a jump keeps what navigation and the end by an answer keep. -/
theorem keeps_follow_of (hterminate : ∀ o, Keeps P (terminate o)) (id : Id)
    (outcome : JumpOutcome) : Keeps P (iv.follow id outcome) := by
  refine .ite (.bind (hterminate outcome) fun _ => keeps_position) ?_
  split
  · exact .bind .log fun _ => (Navigator.preserves_arrive law.arrival proper_navigator _).keeps
  · exact .bind .log fun _ => .pure

theorem keeps_leave_of (hterminate : ∀ o, Keeps P (terminate o)) (id page : Id) :
    Keeps P (iv.leave id page) := by
  have hnext : Keeps P (iv.navigator.nextPage page) :=
    (Navigator.preserves_nextPage law proper_navigator page).keeps
  refine .bind Navigator.keeps_announce fun _ => ?_
  refine .bind (Navigator.preserves_continuesLoop page).keeps fun _ => ?_
  refine .ite hnext <| .bind (keeps_jumpOnLeaving page) fun o => ?_
  split
  · exact hnext
  · exact .bind (Navigator.preserves_closeIteration law proper_navigator page).keeps
      fun _ => keeps_follow_of law hterminate id _

theorem keeps_begin_of (hsettle : ∀ l, Keeps P (settle l)) : Keeps P iv.begin :=
  .bind Navigator.keeps_announce fun _ =>
    .bind (Navigator.preserves_firstPage law.arrival proper_navigator).keeps fun _ =>
      .bind (hsettle _) fun _ => .bind .session fun _ => .log

/-- Leaving a page forward keeps what navigation, moves and the end of the survey respect. -/
theorem keeps_forward_of (hterminate : ∀ o, Keeps P (terminate o))
    (hsettle : ∀ l, Keeps P (settle l)) (id : Id) (fromPage : Option Id) :
    Keeps P (iv.forward id fromPage) := by
  rw [forward_eq]
  refine onCurrentPage_ensures keeps_locate (fun page => ?_) fromPage
  refine .bind ((keeps_leave_of law hterminate id page).mono (fun _ hs => hs.1) fun _ _ hs => hs)
    fun landing => ?_
  exact .bind (hsettle landing) fun _ => Keeps.pure

/-- Leaving a page backward keeps what navigation and moves respect. -/
theorem keeps_backward_of (hmove : ∀ s page, P s → P (s.moveTo (some page)))
    (fromPage : Option Id) : Keeps P (iv.backward fromPage) := by
  rw [backward_eq]
  refine onCurrentPage_ensures keeps_locate (fun page => ?_) fromPage
  have hprevious : Keeps P (iv.navigator.previousPage page) :=
    (Navigator.preserves_previousPage law proper_navigator fun _ _ => trivial).keeps
  refine .bind (Navigator.keeps_announce.mono (fun _ hs => hs.1) fun _ _ hs => hs) fun _ => ?_
  refine .bind hprevious fun landing => ?_
  split
  · exact Keeps.pure
  · exact .bind (Keeps.update fun _ hs => hmove _ _ hs) fun _ => Keeps.pure

end Cursor

section Law
variable (law : PlanLaw iv.survey P)
include law

/-- Leaving a page forward keeps what navigation keeps. -/
theorem keeps_leave (id page : Id) : Keeps P (iv.leave id page) :=
  keeps_leave_of law.toCursorLaw (keeps_terminate law.same) id page

theorem keeps_begin : Keeps P iv.begin :=
  keeps_begin_of law.toCursorLaw (keeps_settle law.same)

theorem keeps_forward (id : Id) (fromPage : Option Id) : Keeps P (iv.forward id fromPage) :=
  keeps_forward_of law.toCursorLaw (keeps_terminate law.same) (keeps_settle law.same) id fromPage

theorem keeps_backward (fromPage : Option Id) : Keeps P (iv.backward fromPage) :=
  keeps_backward_of law.toCursorLaw (fun _ _ hs => law.same hs ⟨rfl, rfl, rfl, rfl, rfl⟩) fromPage

theorem keeps_render (id : Id) (page : Option Id) : Keeps P (iv.render id page) :=
  keeps_rendering (fun _ _ h => law.same h ⟨rfl, rfl, rfl, rfl, rfl⟩) id page

theorem keeps_recorded (id questionId : Id) : Keeps P (iv.recorded id questionId) :=
  keeps_recorded_of (fun _ => True)
    ((Jump.keeps_ofAnswer questionId).mono (fun _ hs => hs) fun _ _ hs => ⟨hs, fun _ _ => trivial⟩)
    (fun o _ _ => keeps_terminate law.same o) (fun _ hs => law.same hs ⟨rfl, rfl, rfl, rfl, rfl⟩) id

/-- Recording an answer keeps what new answers and dropped plans respect as well. -/
theorem keeps_record (hrespond : ∀ s questionId answer, P s → P (s.respond questionId answer))
    (hdrop : ∀ s batteryId, P s → P (s.dropPlan batteryId)) (id questionId : Id) (answer : Value) :
    Keeps P (iv.record id questionId answer) :=
  keeps_record_of (keeps_recorded law id questionId) hrespond hdrop answer

end Law

end Interview

end Questionnaire
