import Questionnaire.Proofs.Interview.Runs
import Questionnaire.Proofs.Route.Mistakes
import Questionnaire.Proofs.Route.Trail

/-!
# Interviews without mistakes

An author's mistake in a condition, a text that cannot be read or a variable that no question has,
does not stop an interview: something is shown that should not be, or a jump is not taken. The log
tells of it (`Event.tellsMistake`). A survey that an audit finds no errors and no undefined
variables in is intelligible (`Survey.understands`), and the requests to an interview of an
intelligible survey tell of no mistake.
-/

namespace Questionnaire

open Flow

namespace Interview

variable {iv : Interview} {id : Id}

/-! ## Reading -/

theorem unmistaken_position : iv.position.Unmistaken := by
  refine .bind .session fun s => .ite .pure ?_
  split
  · exact .pure
  · exact .bind Navigator.unmistaken_announce fun _ =>
      .bind Navigator.unmistaken_iterationOf fun _ => .pure

theorem unmistaken_locate : iv.locate.Unmistaken := .bind unmistaken_position fun _ => .pure

theorem unmistaken_report (batteryId : Id) : (iv.report batteryId).Unmistaken :=
  .bind Navigator.unmistaken_announce fun _ => .bind Navigator.unmistaken_progress fun _ => .pure

theorem unmistaken_warnOfDuplicate (s : Session) (fromPage : Option Id) :
    (warnOfDuplicate s fromPage).Unmistaken := by
  unfold warnOfDuplicate
  split
  · exact .pure
  · exact .log rfl

theorem unmistaken_onCurrentPage {work : Id → Flow (Decision Landing)}
    (h : ∀ page, (work page).Unmistaken) (fromPage : Option Id) :
    (iv.onCurrentPage fromPage work).Unmistaken := by
  refine .bind .session fun s => .ite ?_ ?_
  · exact .bind (unmistaken_warnOfDuplicate s fromPage) fun _ => unmistaken_locate
  · split
    · exact h _
    · exact unmistaken_locate

theorem unmistaken_settle (landing : Landing) : (settle landing).Unmistaken :=
  .ite (.bind .update fun _ => .bind .session fun _ => .log rfl) .update

theorem unmistaken_terminate (outcome : JumpOutcome) : (terminate outcome).Unmistaken :=
  .bind .session fun _ => .bind (.log rfl) fun _ => .update

theorem pages_subset : iv.navigator.pages ⊆ iv.navigator.survey.pages :=
  fun _ hp => (sortedBy_perm _ _).mem_iff.1 hp

/-! ## Leaving a page -/

section Intelligible
variable (h : iv.survey.Intelligible)
include h

theorem unmistaken_couldSee (pageId : Id) {q : Question} (hq : q ∈ iv.survey.questions) :
    (iv.couldSee pageId q).Unmistaken := by
  refine .bind .session fun s => ?_
  have hown : ((s.context iv.survey).shows iv.quiet q.visibleIf).Unmistaken :=
    s.unmistaken_shows (fun c hc => h c (.question hq hc)) _
  split
  · exact .bind .pure fun _ => .ite hown .pure
  · next g hg =>
    have hg : g ∈ iv.survey.groups := by
      unfold groupOnPage? at hg
      split at hg
      · exact List.mem_of_find?_eq_some (Option.filter_eq_some_iff.1 hg).1
      · cases hg
    exact .bind (s.unmistaken_shows (fun c hc => h c (.group hg hc)) _) fun _ => .ite hown .pure

theorem unmistaken_answeredQuestions (pageId : Id) : (iv.answeredQuestions pageId).Unmistaken := by
  refine .bind .session fun s => .bind .demandComparable fun _ => ?_
  refine Renderer.unmistaken_keep fun q hq => .bind .demandKeys fun _ => .ite ?_ .pure
  exact unmistaken_couldSee h pageId
    (List.mem_filter.1 ((sortedBy_perm _ _).mem_iff.1 hq)).1

theorem unmistaken_firstOutcome : ∀ questions : List Question,
    (iv.firstOutcome questions).Unmistaken
  | [] => .pure
  | q :: r => by
    refine .bind (Jump.unmistaken_ofAnswer h q.id) fun o => ?_
    split
    · exact .pure
    · exact unmistaken_firstOutcome r

theorem unmistaken_jumpOnLeaving (pageId : Id) : (iv.jumpOnLeaving pageId).Unmistaken := by
  refine .bind (unmistaken_answeredQuestions h pageId) fun _ =>
    .bind (unmistaken_firstOutcome h _) fun o => ?_
  split
  · exact .pure
  · exact Jump.unmistaken_ofPage h pageId

theorem unmistaken_follow (outcome : JumpOutcome) : (iv.follow id outcome).Unmistaken := by
  refine .ite (.bind (unmistaken_terminate outcome) fun _ => unmistaken_position) ?_
  split
  · exact .bind (.log rfl) fun _ => Navigator.unmistaken_arrive h pages_subset _
  · exact .bind (.log rfl) fun _ => .pure

theorem unmistaken_leave (page : Id) : (iv.leave id page).Unmistaken := by
  have hnext : (iv.navigator.nextPage page).Unmistaken :=
    Navigator.unmistaken_nextPage h pages_subset
  refine .bind Navigator.unmistaken_announce fun _ => ?_
  refine .bind Navigator.unmistaken_continuesLoop fun _ => .ite hnext ?_
  refine .bind (unmistaken_jumpOnLeaving h page) fun o => ?_
  split
  · exact hnext
  · exact .bind Navigator.unmistaken_closeIteration fun _ => unmistaken_follow h _

/-! ## Requests -/

theorem unmistaken_begin : iv.begin.Unmistaken := by
  refine .bind Navigator.unmistaken_announce fun _ => ?_
  refine .bind (Navigator.unmistaken_firstPage h pages_subset) fun landing => ?_
  exact .bind (unmistaken_settle landing) fun _ => .bind .session fun _ => .log rfl

theorem unmistaken_forward (fromPage : Option Id) : (iv.forward id fromPage).Unmistaken := by
  rw [forward_eq]
  refine unmistaken_onCurrentPage (fun page => ?_) fromPage
  exact .bind (unmistaken_leave h page) fun landing => .bind (unmistaken_settle landing) fun _ =>
    .pure

theorem unmistaken_backward (fromPage : Option Id) : (iv.backward fromPage).Unmistaken := by
  rw [backward_eq]
  refine unmistaken_onCurrentPage (fun page => .bind Navigator.unmistaken_announce fun _ => ?_) _
  refine .bind (Navigator.unmistaken_previousPage h pages_subset) fun landing => ?_
  split
  · exact .pure
  · exact .bind .update fun _ => .pure

theorem unmistaken_record (questionId : Id) (answer : Value) :
    (iv.record id questionId answer).Unmistaken := by
  have hrest : (iv.recorded id questionId).Unmistaken := by
    refine .bind (Jump.unmistaken_ofAnswer h questionId) fun o => ?_
    split
    · exact .pure
    · refine .ite (.bind (unmistaken_terminate _) fun _ => .pure) <| .ite ?_ .pure
      exact .bind (.log rfl) fun _ => .bind .update fun _ => .pure
  refine .bind .demandKeys fun _ => .bind .session fun _ => .bind .update fun _ => .ite ?_ hrest
  exact .bind Navigator.unmistaken_announce fun _ => .bind (Navigator.unmistaken_resetAll _)
    fun _ => hrest

theorem unmistaken_render (page : Option Id) : (iv.render id page).Unmistaken := by
  refine .bind .session fun s => ?_
  split
  · exact .throw
  · refine .bind Navigator.unmistaken_announce fun _ =>
      .bind Navigator.unmistaken_iterationOf fun _ => ?_
    exact .bind (Renderer.unmistaken_page h _) fun _ => .bind .session fun _ => .pure

/-- The work of every request tells of no mistake. -/
theorem Asks.unmistaken {α : Type} {work : Flow (Decision α)} (hasks : iv.Asks id work) :
    work.Unmistaken := by
  cases hasks with
  | record => exact unmistaken_record h _ _
  | offered hoffer =>
    cases hoffer with
    | locate => exact unmistaken_locate
    | forward fromPage => exact unmistaken_forward h fromPage
    | backward fromPage => exact unmistaken_backward h fromPage
    | record => exact unmistaken_record h _ _
    | render page => exact unmistaken_render h page
    | report batteryId => exact unmistaken_report batteryId

end Intelligible

/-! ## The log of a request -/

/-- The log of a request is what its work logged, and the store's refusal of it. -/
theorem tellsMistake_of_conclude {α : Type} {store : Store}
    {result : Except Fault (Decision α) × Desk}
    (h : ∀ e ∈ result.2.events, e.tellsMistake = false) :
    ∀ e ∈ (conclude store result).events, e.tellsMistake = false := by
  have hsave : ∀ s, ∀ e ∈ store.saveEvents s, e.tellsMistake = false := by
    intro s e he
    unfold Store.saveEvents at he
    split at he
    · split at he
      · cases he
      · cases List.mem_singleton.1 he
        rfl
    · cases he
  rcases result with ⟨e | decision, desk⟩
  · exact h
  · unfold conclude
    dsimp only
    split
    · have hall := List.forall_mem_append.2 ⟨h, hsave desk.session⟩
      split <;> exact hall
    · exact h

theorem tellsMistake_of_perform {α : Type} {work : Flow α} (h : work.Unmistaken) (s : Session) :
    ∀ e ∈ (iv.perform work s).2.events, e.tellsMistake = false := by
  obtain ⟨es, hes, hall⟩ := h ⟨s, iv.generatorFor s, []⟩
  rw [perform, hes]
  exact hall

/-- If an audit finds no errors and no undefined variables, the survey understands all conditions
that something depends on, and no request tells of a mistake in one. -/
theorem clean_audit_rules_out_mistakes (iv : Interview) (herrors : iv.survey.audit.errors = [])
    (hundefined : iv.survey.audit.undefined = []) :
    (∀ c, iv.survey.DependsOn c → iv.survey.Understands c) ∧
      (∀ store id embedded, ∀ e ∈ (iv.start store id embedded).events, e.tellsMistake = false) ∧
        ∀ {α : Type} {id : Id} {work : Flow (Decision α)}, iv.Asks id work →
          ∀ store meanwhile, ∀ e ∈ (iv.transact store id work meanwhile).events,
            e.tellsMistake = false := by
  have h : iv.survey.Intelligible := fun c hc => Survey.understands herrors hundefined hc
  refine ⟨h, fun store id embedded => ?_, fun {α id work} hasks store meanwhile => ?_⟩
  · have hbegin : ∀ e ∈ (iv.perform iv.begin (.new id iv.survey.id embedded)).2.events,
        e.tellsMistake = false := tellsMistake_of_perform (unmistaken_begin h) _
    unfold start
    rcases hperform : iv.perform iv.begin (.new id iv.survey.id embedded) with ⟨e | _, desk⟩ <;>
      rw [hperform] at hbegin
    · exact hbegin
    · dsimp only
      split <;> exact hbegin
  · unfold transact
    split
    · nofun
    · exact tellsMistake_of_conclude (tellsMistake_of_perform (hasks.unmistaken h) _)

open Sample BrandTracker in
/-- The condition under which the young are sent away is understood, and an interview of the brand
tracker begins without a mistake. -/
theorem clean_audit_rules_out_mistakes_brandTracker :
    let iv : Interview := ⟨BrandTracker.survey (.int 2), Settings.default, .ofScript []⟩
    (iv.survey.audit.errors = [] ∧ iv.survey.audit.undefined = []) ∧
      iv.survey.Understands ⟨.text "e_underage", .text "lessThan(answer('AGE'), 16)", .null⟩ ∧
      ∀ e ∈ (iv.start .emptyMemory (.text "demo") ∅).events, e.tellsMistake = false := by
  intro iv
  have herrors : iv.survey.audit.errors = [] := Survey.errors_eq_nil_iff.2 findings_warn
  have hundefined : iv.survey.audit.undefined = [] := by decide +kernel
  obtain ⟨hunderstands, hstart, -⟩ := clean_audit_rules_out_mistakes iv herrors hundefined
  exact ⟨⟨herrors, hundefined⟩, hunderstands _ (.rule (.head _) rfl), hstart _ _ _⟩

end Interview

end Questionnaire
