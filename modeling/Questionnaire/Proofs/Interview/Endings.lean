import Questionnaire.Proofs.Interview.Runs
import Questionnaire.Sample.BrandTracker

/-!
# How sessions end, and stay ended

Once a session is completed, its ending (that it is completed, whether it was terminated, and for
which reason) changes only by late answers, and by those only if they terminate
(`Interview.ending_final`). Each outcome of a late answer acts on the ending in the same way
(`Ending.after`), so what a sequence of requests makes of it is a fold over the outcomes.

Two laws about work carry this. On a completed session no request but an answer changes the ending
(`Browses.keeps_ending`), since leaving a page is for open sessions only. An answer is recorded
whether the session is open or not, and its outcome decides the ending (`record_ending`). The mark
for completion is a truth value on all runs (`Run.everywhere_marked`); without that, the jump to
the end that a late answer may trigger would be able to change the mark.

The condition that no late answer terminates cannot be left out
(`Interview.late_answer_terminates`): an answer to a completed session on which a termination holds
makes it a terminated one.
-/

namespace Questionnaire

open Flow

/-! ## Endings -/

/-- What a session records of how its survey ended. -/
structure Ending where
  completed : Value
  terminated : Value
  reason : Option Value
  deriving DecidableEq

/-- The ending that a session records. -/
def Session.ending (s : Session) : Ending := ⟨s.completed, s.terminated, s.terminationReason⟩

/-- The ending after the outcome of a late answer: only one that terminates changes it. -/
def Ending.after (e : Ending) (o : JumpOutcome) : Ending :=
  if o.terminates then ⟨.bool true, .bool true, o.terminationReason⟩ else e

/-- A session whose mark for its end is a truth value, and whose plans have their cursors among
their items. -/
def Session.IsMarked (s : Session) : Prop := (∃ b, s.completed = .bool b) ∧ s.Counted

/-- An ended session that is marked is completed for certain. -/
theorem Session.IsMarked.completed {s : Session} (h : s.IsMarked) (hdone : s.isCompleted = true) :
    s.completed = .bool true := by
  obtain ⟨⟨b, hb⟩, -⟩ := h
  rw [isCompleted, hb] at hdone
  rw [hb, show b = true from hdone]

/-- Outcomes that do not terminate leave an ending as it is. -/
theorem Ending.foldl_after {e : Ending} {late : List JumpOutcome}
    (h : ∀ o ∈ late, o.terminates = false) : late.foldl after e = e := by
  induction late with
  | nil => rfl
  | cons o r ih =>
    have ho : e.after o = e := by rw [after, h o (.head _)]; rfl
    rw [List.foldl_cons, ho, ih fun p hp => h p (.tail _ hp)]

/-- No outcome takes back that a session is completed. -/
theorem Ending.foldl_completed {e : Ending} (he : e.completed = .bool true)
    (late : List JumpOutcome) : (late.foldl after e).completed = .bool true := by
  induction late generalizing e with
  | nil => exact he
  | cons o r ih =>
    refine ih ?_
    unfold after
    split
    · rfl
    · exact he

namespace Interview

variable {iv : Interview} {σ₀ σ τ : Store} {ids : List Id} {s t : Session} {id j : Id} {e : Ending}
  {late : List JumpOutcome} {α : Type} {work : Flow (Decision α)}

/-! ## Marks -/

theorem markedLaw (iv : Interview) : CursorLaw iv.survey (fun _ => True) Session.IsMarked :=
  (cursorLaw iv.survey).toCursorLaw.beside fun _ _ _ h => h

theorem keeps_marked_terminate (o : JumpOutcome) : Keeps Session.IsMarked (terminate o) :=
  .bind .session fun _ => .bind .log fun _ => .update fun _ hs => ⟨⟨true, rfl⟩, hs.2⟩

theorem keeps_marked_settle (l : Landing) : Keeps Session.IsMarked (settle l) :=
  .ite (.bind (.update fun _ hs => ⟨⟨true, rfl⟩, hs.2⟩) fun _ => .bind .session fun _ => .log)
    (.update fun _ hs => hs)

theorem keeps_marked_record (id questionId : Id) (answer : Value) :
    Keeps Session.IsMarked (iv.record id questionId answer) := by
  have hjump : Ensures Session.IsMarked (Jump.ofAnswer iv.survey iv.quiet questionId) fun o s =>
      s.IsMarked ∧ ∀ x, o = some x → True :=
    (Jump.keeps_ofAnswer questionId).mono (fun _ hs => hs) fun _ _ hs => ⟨hs, fun _ _ => trivial⟩
  refine keeps_record_of (keeps_recorded_of (fun _ => True) hjump
    (fun o _ _ => keeps_marked_terminate o) (fun _ hs => ⟨⟨true, rfl⟩, hs.2⟩) id)
    (fun _ _ _ hs => hs) (fun _ _ hs => ⟨hs.1, hs.2.dropPlan⟩) answer

theorem Asks.keeps_marked (h : iv.Asks id work) : Keeps Session.IsMarked work := by
  cases h with
  | record => exact keeps_marked_record _ _ _
  | offered h =>
    cases h with
    | locate => exact keeps_locate
    | forward fromPage =>
      exact keeps_forward_of iv.markedLaw keeps_marked_terminate keeps_marked_settle _ fromPage
    | backward fromPage => exact keeps_backward_of iv.markedLaw (fun _ _ hs => hs) fromPage
    | record => exact keeps_marked_record _ _ _
    | render page => exact keeps_rendering (fun _ _ hs => hs) _ page
    | report batteryId => exact keeps_report batteryId

/-- The end of every stored session is marked by a truth value. -/
theorem Run.everywhere_marked (hempty : ∀ id, σ₀.find? id = none) (h : iv.Run σ₀ ids σ) :
    Everywhere Session.IsMarked σ := by
  refine h.everywhere (fun _ _ hs => hs) (fun g id embedded => ?_)
    (fun {g _ _ _} hasks => @Asks.keeps_marked (iv.drawing g) _ _ _ hasks) (.of_empty hempty)
  refine (keeps_begin_of (iv.drawing g).markedLaw keeps_marked_settle).mono ?_ fun _ _ hs => hs
  rintro _ rfl
  exact ⟨⟨false, rfl⟩, counted_new _ _ _⟩

/-! ## Work on a completed session -/

/-- The work of the requests that give no answer. -/
inductive Browses (iv : Interview) (id : Id) : {α : Type} → Flow (Decision α) → Prop
  | locate : iv.Browses id iv.locate
  | forward (fromPage : Option Id) : iv.Browses id (iv.forward id fromPage)
  | backward (fromPage : Option Id) : iv.Browses id (iv.backward fromPage)
  | render (page : Option Id) : iv.Browses id (iv.render id page)
  | report (batteryId : Id) : iv.Browses id (iv.report batteryId)

theorem Browses.asks (h : iv.Browses id work) : iv.Asks id work := by
  cases h with
  | locate => exact .offered .locate
  | forward fromPage => exact .offered (.forward fromPage)
  | backward fromPage => exact .offered (.backward fromPage)
  | render page => exact .offered (.render page)
  | report batteryId => exact .offered (.report batteryId)

/-- On a completed session no request but an answer changes the ending. -/
theorem Browses.keeps_ending (h : iv.Browses id work) (he : e.completed = .bool true) :
    Keeps (fun s => s.ending = e) work := by
  -- Work on the current page is for open sessions only.
  have hclosed {Q : Decision Landing → Session → Prop} {f : Flow (Decision Landing)} (page : Id) :
      Ensures (fun s => s.ending = e ∧ s.isCompleted = false ∧ s.currentPage = some page) f Q := by
    refine .given (fun s hs => ?_) False.elim
    have hcompleted : s.completed = .bool true := (congrArg Ending.completed hs.1).trans he
    rw [Session.isCompleted, hcompleted] at hs
    exact nomatch hs.2.1
  cases h with
  | locate => exact keeps_locate
  | forward fromPage =>
    rw [forward_eq]
    exact onCurrentPage_ensures keeps_locate (fun page => hclosed page) fromPage
  | backward fromPage =>
    rw [backward_eq]
    exact onCurrentPage_ensures keeps_locate (fun page => hclosed page) fromPage
  | render page => exact keeps_rendering (fun _ _ hs => hs) id page
  | report batteryId => exact keeps_report batteryId

/-- The outcome of an answer to a completed session decides its ending, and the session is to be
stored. -/
theorem recorded_ending (iv : Interview) (he : e.completed = .bool true) (id questionId : Id) :
    Ensures (fun s => s.ending = e) (iv.recorded id questionId) fun a s =>
      s.ending = a.reply.toList.foldl Ending.after e ∧ a.commit = true := by
  refine .bind (Jump.keeps_ofAnswer questionId) fun o => ?_
  cases o with
  | none => exact .pure fun _ hs => ⟨hs, rfl⟩
  | some o =>
    have hafter : (some o).toList.foldl Ending.after e = e.after o := rfl
    refine .ite (fun hends => ?_) fun hgoes => ?_
    · have hterminate : Ensures (fun s => s.ending = e) (terminate o) fun _ s =>
          s.ending = e.after o := by
        refine .bind Keeps.session fun _ => .bind Keeps.log fun _ => .update fun s _ => ?_
        rw [Ending.after, hends, if_pos rfl]
        rfl
      exact .bind hterminate fun _ => .pure fun _ hs => ⟨hs, rfl⟩
    · have hsame : e.after o = e := by rw [Ending.after, hgoes]; rfl
      rw [← hafter] at hsame
      refine .ite (fun _ => ?_) fun _ => .pure fun _ hs => ⟨hs.trans hsame.symm, rfl⟩
      -- The end by a jump rule marks the session as completed, which it is.
      have hcomplete : Keeps (fun s => s.ending = e)
          (update fun s => { s with completed := .bool true }) := by
        refine .update fun s hs => ?_
        rw [← hs] at he ⊢
        exact congrArg (Ending.mk · s.terminated s.terminationReason) he.symm
      refine .bind Keeps.log fun _ => .bind hcomplete fun _ => .pure fun _ hs => ?_
      exact ⟨hs.trans hsame.symm, rfl⟩

theorem record_ending (iv : Interview) (he : e.completed = .bool true) (id questionId : Id)
    (answer : Value) : Ensures (fun s => s.ending = e) (iv.record id questionId answer) fun a s =>
      s.ending = a.reply.toList.foldl Ending.after e ∧ a.commit = true := by
  have hrest := recorded_ending iv he id questionId
  refine .bind Keeps.demandKeys fun _ => .bind Keeps.session fun _ =>
    .bind (Keeps.update fun s hs => hs) fun _ => .ite (fun _ => ?_) fun _ => hrest
  refine .bind Navigator.keeps_announce fun _ => .bind ?_ fun _ => hrest
  exact (Navigator.resetAll_ensures (D := fun s => s.ending = e) fun _ _ hs => hs).mono
    (fun _ hs => hs) fun _ _ hs => hs.1

/-! ## Sequels -/

theorem submitAnswer_eq {q : Question} {questionId : Id} {answer : Value}
    (hq : iv.survey.question? questionId = some q) :
    iv.submitAnswer σ j questionId answer =
      iv.transact σ j (iv.record j questionId answer) undisturbed := by
  simp only [submitAnswer, submitAnswerDuring, hq]

/-- An answer to a question that is not in the survey fails. -/
theorem submitAnswer_unknown {questionId : Id} {answer : Value}
    (hq : iv.survey.question? questionId = none) :
    iv.submitAnswer σ j questionId answer = ⟨.error (.unknownQuestion questionId), σ, []⟩ := by
  simp only [submitAnswer, submitAnswerDuring, hq]

/-- The outcome of an answer that was given to the session under an id, if it had one. -/
def lateOutcomes (iv : Interview) (σ : Store) (id j questionId : Id) (answer : Value) :
    List JumpOutcome :=
  match σ.samePlace j id, (iv.submitAnswer σ j questionId answer).reply with
  | true, .ok o => o.toList
  | _, _ => []

/-- How requests go on from a store, with the outcomes of the answers that were given to the session
under an id on the way. -/
inductive Sequel (iv : Interview) (id : Id) (σ₀ : Store) : List JumpOutcome → Store → Prop
  | nil : iv.Sequel id σ₀ [] σ₀
  | start {late : List JumpOutcome} {σ : Store} (g : Generator) (j : Id)
      (embedded : Register Value) : iv.Sequel id σ₀ late σ →
      (∀ u d, (iv.drawing g).perform (iv.drawing g).begin (.new j iv.survey.id embedded) =
        (.ok u, d) → σ.Takes d.session) →
      iv.Sequel id σ₀ late ((iv.drawing g).start σ j embedded).store
  | browse {late : List JumpOutcome} {σ : Store} (g : Generator) {j : Id} {α : Type}
      {work : Flow (Decision α)} : iv.Sequel id σ₀ late σ → (iv.drawing g).Browses j work →
      (iv.drawing g).IsTaken σ j work →
      iv.Sequel id σ₀ late ((iv.drawing g).transact σ j work undisturbed).store
  | answer {late : List JumpOutcome} {σ : Store} (g : Generator) (j questionId : Id)
      (answer : Value) : iv.Sequel id σ₀ late σ →
      (∀ q, iv.survey.question? questionId = some q →
        (iv.drawing g).IsTaken σ j ((iv.drawing g).record j questionId answer)) →
      iv.Sequel id σ₀ (late ++ (iv.drawing g).lateOutcomes σ id j questionId answer)
        ((iv.drawing g).submitAnswer σ j questionId answer).store

/-- An answer that is given to a completed session and has a reply is committed. -/
theorem commits_of_record {questionId : Id} {answer : Value} {o : Option JumpOutcome}
    (ht : σ.find? j = some t) (hdone : t.completed = .bool true)
    (hreply : (iv.transact σ j (iv.record j questionId answer) undisturbed).reply = .ok o) :
    iv.commits σ j (iv.record j questionId answer) = true := by
  obtain ⟨s, a, d, hs, hwork, -, hcommits, -⟩ := transact_ok hreply
  obtain rfl : t = s := Option.some.inj (ht.symm.trans hs)
  have hrecord := record_ending iv (e := t.ending) hdone j questionId answer
  rw [hcommits]
  exact (hrecord _ a d rfl hwork).2

/-- A late answer changes the ending of the session under an id by its outcome, if it was given to
that session, and else not at all. -/
theorem ending_after_answer (iv : Interview) {questionId : Id} {answer : Value}
    (htaken : ∀ q, iv.survey.question? questionId = some q →
      iv.IsTaken σ j (iv.record j questionId answer))
    (hσ : Everywhere Session.Counted σ) (ht : σ.find? id = some t)
    (hdone : t.completed = .bool true) :
    ∃ t', (iv.submitAnswer σ j questionId answer).store.find? id = some t' ∧
      t'.ending = (iv.lateOutcomes σ id j questionId answer).foldl Ending.after t.ending := by
  cases hq : iv.survey.question? questionId with
  | none =>
    refine ⟨t, by rw [submitAnswer_unknown hq, ht], ?_⟩
    rw [lateOutcomes, submitAnswer_unknown hq]
    cases σ.samePlace j id <;> rfl
  | some q =>
    have hasks : iv.Asks j (iv.record j questionId answer) := .record hq
    rw [lateOutcomes, submitAnswer_eq hq]
    rcases hasks.find?_after (htaken q hq) hσ ht with
      ⟨hfound, hnot⟩ | ⟨a, d, n, hwork, hreply, hplace, hfound⟩
    · refine ⟨t, hfound, ?_⟩
      cases hplace : σ.samePlace j id with
      | false => rfl
      | true =>
        have hcommits := hnot.resolve_right (by rw [hplace]; decide)
        rw [← Store.find?_of_samePlace hplace] at ht
        cases hreply : (iv.transact σ j (iv.record j questionId answer) undisturbed).reply with
        | error e => rfl
        | ok o => rw [commits_of_record ht hdone hreply] at hcommits; cases hcommits
    · have hrecord := record_ending iv (e := t.ending) hdone j questionId answer
      rw [hplace, hreply]
      exact ⟨_, hfound, (hrecord _ a d rfl hwork).1⟩

/-- A request that gives no answer leaves the ending of a completed session as it is. -/
theorem Browses.ending_after (h : iv.Browses j work) (htaken : iv.IsTaken σ j work)
    (hσ : Everywhere Session.Counted σ) (ht : σ.find? id = some t)
    (hdone : t.completed = .bool true) :
    ∃ t', (iv.transact σ j work undisturbed).store.find? id = some t' ∧ t'.ending = t.ending := by
  rcases h.asks.find?_after htaken hσ ht with ⟨hfound, -⟩ | ⟨a, d, n, hwork, -, -, hfound⟩
  · exact ⟨t, hfound, rfl⟩
  · have hkeeps := h.keeps_ending (e := t.ending) hdone
    exact ⟨_, hfound, hkeeps _ a d rfl hwork⟩

/-! ## Sequels of runs -/

/-- What requests lead to from the end of a run is the end of a run. -/
theorem Sequel.exists_run (h : iv.Sequel id σ late τ) (hrun : iv.Run σ₀ ids σ) :
    ∃ later, iv.Run σ₀ later τ := by
  induction h with
  | nil => exact ⟨ids, hrun⟩
  | start g j embedded _ htakes ih =>
    obtain ⟨later, hlater⟩ := ih
    exact ⟨later, hlater.start g j embedded htakes⟩
  | browse g _ hbrowse htaken ih =>
    obtain ⟨later, hlater⟩ := ih
    exact ⟨_, hlater.serve g hbrowse.asks htaken⟩
  | @answer _ υ g j questionId answer _ htaken ih =>
    obtain ⟨later, hlater⟩ := ih
    cases hq : (iv.drawing g).survey.question? questionId with
    | none =>
      rw [submitAnswer_unknown hq]
      exact ⟨later, hlater⟩
    | some q =>
      rw [submitAnswer_eq hq]
      exact ⟨_, hlater.serve g (.record hq) (htaken q hq)⟩

/-- However requests go on, the session under an id at which a run led to a completed one keeps its
ending but for the outcomes of late answers. -/
theorem ending_final (hempty : ∀ id, σ₀.find? id = none) (hrun : iv.Run σ₀ ids σ)
    (hs : σ.find? id = some s) (hdone : s.isCompleted = true) (h : iv.Sequel id σ late τ) :
    ∃ t, τ.find? id = some t ∧ t.ending = late.foldl Ending.after s.ending ∧
      ((∀ o ∈ late, o.terminates = false) → t.ending = s.ending) := by
  have hcompleted : s.ending.completed = .bool true :=
    ((hrun.everywhere_marked hempty) id s hs).property.completed hdone
  obtain ⟨t, ht, hending⟩ : ∃ t, τ.find? id = some t ∧
      t.ending = late.foldl Ending.after s.ending := by
    induction h with
    | nil => exact ⟨s, hs, rfl⟩
    | start g j embedded hsequel htakes ih =>
      obtain ⟨t, ht, hending⟩ := ih
      exact ⟨t, find?_after_start htakes ht, hending⟩
    | @browse late υ g j _ work hsequel hbrowse htaken ih =>
      obtain ⟨t, ht, hending⟩ := ih
      obtain ⟨later, hlater⟩ := hsequel.exists_run hrun
      have hdone : t.ending.completed = .bool true := by
        rw [hending, Ending.foldl_completed hcompleted]
      obtain ⟨t', ht', hkept⟩ :=
        hbrowse.ending_after htaken (hlater.counted (.of_empty hempty)) ht hdone
      exact ⟨t', ht', hkept.trans hending⟩
    | @answer late υ g j questionId answer hsequel htaken ih =>
      obtain ⟨t, ht, hending⟩ := ih
      obtain ⟨later, hlater⟩ := hsequel.exists_run hrun
      have hdone : t.ending.completed = .bool true := by
        rw [hending, Ending.foldl_completed hcompleted]
      obtain ⟨t', ht', hafter⟩ :=
        ending_after_answer (iv.drawing g) htaken (hlater.counted (.of_empty hempty)) ht hdone
      refine ⟨t', ht', ?_⟩
      rw [hafter, hending, List.foldl_append]
  exact ⟨t, ht, hending, fun hlate => by rw [hending, Ending.foldl_after hlate]⟩

end Interview

/-! ## A screener that ends the survey for the young -/

namespace Sample.Screener

open BrandTracker

/-- The question whose answer may end the survey. -/
def question : Question :=
  { plainQuestion "q_age" "p_screen" "AGE" .number "How old are you?" with
    terminateIf := some ⟨.text "e_young", .text "lessThan(answer('AGE'), 18)", .text "Under 18"⟩ }

/-- The page of the question. -/
def page : Page := plainPage "p_screen" 0 "About you"

/-- The brand tracker cut down to its screener. -/
def survey : Survey :=
  { BrandTracker.survey .null with
    pages := [page], questions := [question], jumpRules := [], batteries := [] }

/-- The interview. -/
def interview : Interview := ⟨survey, Settings.default, .ofScript [0]⟩

/-- The id of the session. -/
def demo : Id := .text "demo"

/-- The store once the respondent has given their age and left the screener. -/
def finished : Store :=
  let started := (interview.start .emptyMemory demo ∅).store
  (interview.nextPage (interview.submitAnswer started demo question.id (.int 34)).store demo
    (some page.id)).store

/-- The session that is completed with an answer. -/
def completed (answer : Value) : Session :=
  { (Session.new demo survey.id ∅).moveTo (some page.id) with
    responses := Register.set ∅ question.id answer
    currentPage := none
    completed := .bool true }

/-- The session that an answer ended. -/
def ended (answer : Value) : Session :=
  { completed answer with terminated := .bool true, terminationReason := some (.text "Under 18") }

theorem exists_run_finished : ∃ ids, interview.Run .emptyMemory ids finished := by
  have hasks : interview.Asks demo (interview.record demo question.id (.int 34)) :=
    .record (q := question) (by decide)
  have hstart : interview.Run .emptyMemory [] (interview.start .emptyMemory demo ∅).store :=
    Interview.Run.nil.start interview.unseeded demo ∅ fun _ _ _ =>
      Store.takes_of_memory (.refl _) _
  have hanswer := hstart.serve interview.unseeded hasks hstart.isTaken
  exact ⟨_, hanswer.serve interview.unseeded (.offered (.forward (some page.id))) hanswer.isTaken⟩

theorem find?_finished : finished.find? demo = some ((completed (.int 34)).atVersion 2) := by
  decide +kernel

end Sample.Screener

open Sample.Screener

/-- The respondent who corrects their age afterwards and asks for the position. -/
theorem Interview.ending_final_screener :
    let corrected := (interview.submitAnswer finished demo question.id (.int 35)).store
    ∃ t, (interview.currentPosition corrected demo).store.find? demo = some t ∧
      t.ending = ⟨.bool true, .bool false, none⟩ := by
  intro corrected
  obtain ⟨ids, hrun⟩ := exists_run_finished
  have hanswer : interview.Sequel demo finished ([] ++ interview.lateOutcomes finished demo demo
      question.id (.int 35)) corrected :=
    Sequel.nil.answer interview.unseeded demo question.id (.int 35) fun _ _ => hrun.isTaken
  obtain ⟨later, hcorrected⟩ := hanswer.exists_run hrun
  have hlocate : interview.Browses demo interview.locate := .locate
  have hposition := hanswer.browse interview.unseeded hlocate hcorrected.isTaken
  have hlate : interview.lateOutcomes finished demo demo question.id (.int 35) = [] := by
    decide +kernel
  rw [hlate] at hposition
  obtain ⟨t, ht, -, hkept⟩ :=
    ending_final Store.find?_emptyMemory hrun find?_finished rfl hposition
  exact ⟨t, ht, hkept nofun⟩

/-- An answer to a completed session ends it once more, now by a termination. -/
theorem Interview.late_answer_terminates :
    (∃ ids, interview.Run .emptyMemory ids finished) ∧
      finished.find? demo = some ((completed (.int 34)).atVersion 2) ∧
      ((completed (.int 34)).atVersion 2).ending = ⟨.bool true, .bool false, none⟩ ∧
      (interview.submitAnswer finished demo question.id (.int 15)).store.find? demo =
        some ((ended (.int 15)).atVersion 3) ∧
      ((ended (.int 15)).atVersion 3).ending =
        ⟨.bool true, .bool true, some (.text "Under 18")⟩ :=
  ⟨exists_run_finished, find?_finished, rfl, by decide +kernel, rfl⟩

end Questionnaire
