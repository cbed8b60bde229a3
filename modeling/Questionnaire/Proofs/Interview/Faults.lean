import Questionnaire.Proofs.Interview.Answers

/-!
# No page is unknown

A request to leave a page may fail: for want of a verdict on a condition, at values that have no
order, or because the store refuses the session. It never fails for want of a page
(`Fault.Pageless`). A page that navigation looks for is the current page of a consistent session,
the end of an accepted battery, or where a jump leads, and each of these is a page of the survey.
-/

namespace Questionnaire

open Flow

/-- A fault that is not for want of a page. -/
def Fault.Pageless (e : Fault) : Prop := ∀ id, e ≠ .unknownPage id

theorem Condition.Failure.fault_pageless (f : Condition.Failure) : f.fault.Pageless := by
  intro id
  cases f <;> simp [fault]

/-- A result that is no fault for want of a page. -/
def Except.Pageless {α : Type} (r : Except Fault α) : Prop := ∀ e, r = .error e → e.Pageless

namespace Except.Pageless

variable {α β : Type} {r : Except Fault α} {k : α → Except Fault β}

theorem bind (hr : Pageless r) (hk : ∀ a, Pageless (k a)) : Pageless (r >>= k) := by
  intro e he
  cases r with
  | error e' => cases he; exact hr _ rfl
  | ok a => exact hk a e he

theorem ok {a : α} : Pageless (.ok a) := fun _ he => nomatch he

theorem error {e : Fault} (he : e.Pageless) : Pageless (.error e : Except Fault α) := by
  rintro _ ⟨⟩
  exact he

theorem map {f : α → β} (hr : Pageless r) : Pageless (r.map f) := by
  intro e he
  cases r with
  | error e' => cases he; exact hr _ rfl
  | ok a => cases he

theorem forM {l : List α} {f : α → Except Fault PUnit} (h : ∀ a, Pageless (f a)) :
    Pageless (l.forM f) := by
  induction l with
  | nil => exact ok
  | cons a r ih => exact bind (h a) fun _ => ih

theorem demandComparable {l : List Value} : Pageless (demandComparable l) := by
  unfold Questionnaire.demandComparable
  split
  · exact ok
  · exact error fun _ hid => nomatch hid

theorem demandKeys {ids : List Id} : Pageless (demandKeys ids) := by
  unfold Questionnaire.demandKeys
  split
  · exact error fun _ hid => nomatch hid
  · exact ok

end Except.Pageless

namespace Context

theorem verdict_pageless {ctx : Context} {quiet : Bool} {written : Value} {e : Fault}
    (h : (ctx.judgeOpenAuthored quiet written).1 = .error e) : e.Pageless := by
  unfold judgeOpenAuthored at h
  split at h
  · cases h
  · unfold judgeOpen at h
    split at h
    · cases h
    · split at h
      · cases h
      · split at h <;> cases h
        exact Condition.Failure.fault_pageless _
  · cases h
    intro id hid
    cases hid

variable {P : Session → Prop}

theorem shows_pageless (ctx : Context) (quiet : Bool) (criterion : Option Criterion) :
    FailsOnly P (ctx.shows quiet criterion) Fault.Pageless :=
  .bind_yields .logAll fun _ => .ofResult fun _ => verdict_pageless

end Context

theorem Navigator.Unjudged.pageless {nav : Navigator} {u : Session} {e : Fault}
    (h : nav.Unjudged u e) : e.Pageless := by
  obtain ⟨-, p, -, he⟩ := h
  exact Context.verdict_pageless he

/-! ## Surveys that cannot be navigated -/

theorem RoleTable.demandVerdict_pageless {t : RoleTable} {survey : Survey} {b : Battery} :
    Except.Pageless (t.demandVerdict survey b) := by
  unfold demandVerdict
  split
  · refine .bind .demandComparable fun _ => .bind .demandKeys fun _ => ?_
    split
    · split
      · exact .ok
      · exact .error fun _ hid => nomatch hid
    · exact .ok
  · exact .ok

theorem RoleTable.announceAll_pageless {P : Session → Prop} {survey : Survey} :
    ∀ {t : RoleTable} {l : List Battery}, FailsOnly P (announceAll survey t l) Fault.Pageless
  | _, [] => .pure
  | _, _ :: _ => .bind (.ofResult demandVerdict_pageless) Keeps.ofResult fun _ =>
      .bind_yields .logAll fun _ => announceAll_pageless

theorem Navigator.announce_pageless {P : Session → Prop} {nav : Navigator} :
    FailsOnly P nav.announce Fault.Pageless := by
  have hcomparable : ∀ l, FailsOnly P (Flow.demandComparable l) Fault.Pageless := fun _ =>
    .ofResult Except.Pageless.demandComparable
  refine .bind (hcomparable _) Keeps.demandComparable fun _ => ?_
  refine .bind (.ofResult Except.Pageless.demandKeys) Keeps.demandKeys fun _ => ?_
  exact .bind (hcomparable _) Keeps.demandComparable fun _ => RoleTable.announceAll_pageless

/-! ## Jumps -/

namespace Jump

variable {P : Session → Prop} {survey : Survey} {quiet : Bool}

theorem fires_pageless (ctx : Context) (owner text : String) :
    FailsOnly P (fires ctx quiet owner text) Fault.Pageless := by
  refine .ite (fun _ => .pure) fun _ => ?_
  split
  · exact .pure
  · exact .ite (fun _ => .bind_yields .log fun _ => .pure)
      fun _ => .throw (Condition.Failure.fault_pageless _)

theorem textOf_pageless (c : Criterion) : FailsOnly P (textOf c) Fault.Pageless := by
  unfold textOf
  split
  · exact .pure
  · exact .throw fun _ hid => nomatch hid

theorem ruleHolds_pageless (rule : JumpRule) :
    FailsOnly P (ruleHolds survey quiet rule) Fault.Pageless := by
  unfold ruleHolds
  split
  · exact .pure
  · exact .bind (textOf_pageless _) (keeps_textOf _) fun _ => .ite (fun _ => .pure) fun _ =>
      .bind_yields .session fun _ => fires_pageless _ _ _

theorem outcome?_pageless (rule : JumpRule) :
    FailsOnly P (outcome? survey quiet rule) Fault.Pageless := by
  refine .ite (fun _ => .pure) fun _ => ?_
  split
  · exact .pure
  · exact .bind_yields .log fun _ => .pure

theorem firstOf_pageless : ∀ rules : List JumpRule,
    FailsOnly P (firstOf survey quiet rules) Fault.Pageless
  | [] => .pure
  | rule :: r => by
    refine .bind (ruleHolds_pageless rule) (keeps_ruleHolds rule) fun _ => .ite (fun _ => ?_)
      fun _ => firstOf_pageless r
    refine .bind (outcome?_pageless rule) (keeps_outcome? rule) fun o => ?_
    split
    · exact .pure
    · exact firstOf_pageless r

theorem first_pageless (rules : List JumpRule) :
    FailsOnly P (first survey quiet rules) Fault.Pageless :=
  .bind (.ofResult Except.Pageless.demandComparable) Keeps.demandComparable fun _ =>
    firstOf_pageless _

theorem termination_pageless (questionId : Id) :
    FailsOnly P (termination survey quiet questionId) Fault.Pageless := by
  unfold termination
  split
  · exact .pure
  · refine .bind_yields .session fun _ => .bind (textOf_pageless _) (keeps_textOf _) fun _ => ?_
    refine .bind (fires_pageless _ _ _) (keeps_fires _ _ _) fun _ =>
      .ite (fun _ => ?_) fun _ => .pure
    exact .bind_yields .log fun _ => .pure

theorem ofAnswer_pageless (questionId : Id) :
    FailsOnly P (ofAnswer survey quiet questionId) Fault.Pageless := by
  refine .bind (termination_pageless questionId) (keeps_termination questionId) fun o => ?_
  split
  · exact .pure
  · exact first_pageless _

end Jump

theorem Renderer.keep_pageless {P : Session → Prop} {α : Type} {test : α → Flow Bool}
    (h : ∀ a, FailsOnly P (test a) Fault.Pageless) (hkeeps : ∀ a, Keeps P (test a)) :
    ∀ l : List α, FailsOnly P (keep test l) Fault.Pageless
  | [] => .pure
  | a :: r => .bind (h a) (hkeeps a) fun _ => .bind (keep_pageless h hkeeps r)
      (keeps_keep hkeeps r) fun _ => .pure

namespace Interview

variable {iv : Interview} {P : Session → Prop} {u : Session} {p : Page}

theorem couldSee_pageless (pageId : Id) (q : Question) :
    FailsOnly P (iv.couldSee pageId q) Fault.Pageless := by
  refine .bind_yields .session fun s => ?_
  have hown : ∀ {Q : Session → Prop} (shown : Bool), FailsOnly Q
      (if shown then (s.context iv.survey).shows iv.quiet q.visibleIf else pure false)
      Fault.Pageless := fun _ => .ite (fun _ => Context.shows_pageless _ _ _) fun _ => .pure
  split
  · exact .bind .pure Keeps.pure hown
  · exact .bind (Context.shows_pageless _ _ _) (Context.keeps_shows _ _ _ _) hown

theorem answeredQuestions_pageless (pageId : Id) :
    FailsOnly P (iv.answeredQuestions pageId) Fault.Pageless := by
  refine .bind_yields .session fun _ => .bind (.ofResult Except.Pageless.demandComparable)
    Keeps.demandComparable fun _ => Renderer.keep_pageless (fun q => ?_) (fun q => ?_) _
  · refine .bind (.ofResult Except.Pageless.demandKeys) Keeps.demandKeys fun _ => ?_
    exact .bind_yields .session fun _ => .ite (fun _ => couldSee_pageless pageId q) fun _ => .pure
  · exact .bind .demandKeys fun _ => .bind .session fun _ => .ite (keeps_couldSee pageId q) .pure

theorem firstOutcome_pageless : ∀ questions : List Question,
    FailsOnly P (iv.firstOutcome questions) Fault.Pageless
  | [] => .pure
  | q :: r => by
    refine .bind (Jump.ofAnswer_pageless q.id) (Jump.keeps_ofAnswer q.id) fun o => ?_
    split
    · exact .pure
    · exact firstOutcome_pageless r

theorem jumpOnLeaving_pageless (pageId : Id) :
    FailsOnly P (iv.jumpOnLeaving pageId) Fault.Pageless := by
  refine .bind (answeredQuestions_pageless pageId) (keeps_answeredQuestions pageId) fun _ => ?_
  refine .bind (firstOutcome_pageless _) (keeps_firstOutcome _) fun o => ?_
  split
  · exact .pure
  · exact Jump.first_pageless _

theorem settle_pageless (l : Landing) : FailsOnly P (settle l) Fault.Pageless := by
  refine .ite (fun _ => ?_) fun _ => (Yields.update (Q := fun _ _ => True) fun _ _ =>
    trivial).failsOnly
  exact .bind_yields (.update (Q := fun _ _ => True) fun _ _ => trivial) fun _ =>
    .bind_yields .session fun _ => Yields.log.failsOnly

theorem warnOfDuplicate_pageless (s : Session) (fromPage : Option Id) :
    FailsOnly P (warnOfDuplicate s fromPage) Fault.Pageless := by
  unfold warnOfDuplicate
  split
  · exact .pure
  · exact Yields.log.failsOnly

section Navigating
variable (h : iv.navigator.Oriented)
include h

/-- The position of a session that is on a page of the survey, if on any page. -/
theorem position_pageless (hu : iv.Orderly u) (hplans : u.PlansTyped) :
    FailsOnly (· = u) iv.position Fault.Pageless := by
  refine .bind_yields .session fun t => .given (fun _ hs => hs.2.trans hs.1) fun ht => ?_
  subst ht
  refine .ite (fun _ => .pure) fun _ => ?_
  split
  · exact .pure
  · next page hpage =>
    obtain ⟨p, hp, rfl⟩ := exists_page (hu.1.page page hpage).1
    refine .bind Navigator.announce_pageless Navigator.keeps_announce fun _ => ?_
    have hiteration := (h.iterationOf_failsOnly hp (E := Fault.Pageless)).startingAt hplans
    exact .bind (hiteration.mono (fun _ hs => hs.1) fun _ he => he)
      (Navigator.preserves_iterationOf p.id).keeps fun _ => .pure

theorem locate_pageless (hu : iv.Orderly u) (hplans : u.PlansTyped) :
    FailsOnly (· = u) iv.locate Fault.Pageless :=
  .bind (position_pageless h hu hplans) keeps_position fun _ => .pure

theorem follow_pageless (id : Id) {o : JumpOutcome} (ho : o.Sound iv.survey) :
    FailsOnly u.Steady (iv.follow id o) Fault.Pageless := by
  refine .ite (fun _ => ?_) fun _ => ?_
  · -- The position of a session that was just ended is read without looking for a page.
    have hended : Yields u.Steady (terminate o) fun _ s => s.isCompleted = true :=
      .bind .session fun _ => .bind .log fun _ => .update fun _ _ => rfl
    refine .bind_yields hended fun _ => .bind_yields .session fun s => .ite (fun _ => .pure)
      fun hopen => .given (p := False) (fun t ht => ?_) False.elim
    rw [ht.2, ht.1] at hopen
    cases hopen
  · split
    · next page hpage =>
      obtain ⟨p, hp, rfl⟩ := exists_page (ho.page page hpage)
      have hbehind := h.behind_of_mem hp
      rw [h.inOrder.given?_id hp] at hbehind
      exact .bind_yields .log fun _ => (h.arrive_failsOnly hbehind).mono (fun _ hs => hs)
        fun _ he => he.pageless
    · exact .bind_yields .log fun _ => .pure

theorem leave_pageless (id : Id) (hp : p ∈ iv.navigator.pages) :
    FailsOnly u.Steady (iv.leave id p.id) Fault.Pageless := by
  have hnext : FailsOnly u.Steady (iv.navigator.nextPage p.id) Fault.Pageless :=
    (h.nextPage_failsOnly hp).mono (fun _ hs => hs) fun _ he => he.pageless
  refine .bind Navigator.announce_pageless Navigator.keeps_announce fun _ => ?_
  refine .bind ((h.continuesLoop_failsOnly hp).mono (fun _ hs => hs.2) fun _ he => he)
    (Navigator.preserves_continuesLoop p.id).keeps fun _ => .ite (fun _ => hnext) fun _ => ?_
  have hjump : Ensures u.Steady (iv.jumpOnLeaving p.id) fun o s =>
      u.Steady s ∧ ∀ x, o = some x → x.Sound iv.survey :=
    (keeps_jumpOnLeaving p.id).and (jumpOnLeaving_sound h.typed p.id)
  refine .bind (jumpOnLeaving_pageless p.id) hjump fun o => .given (fun _ hs => hs.2) fun ho =>
    .mono (P := u.Steady) ?_ (fun _ hs => hs.1) fun _ he => he
  split
  · exact hnext
  · next o =>
    have hclose : Keeps u.Steady (iv.navigator.closeIteration p.id) :=
      (Navigator.preserves_closeIteration (Session.Steady.law h.typed u) h.proper p.id).keeps
    exact .bind ((h.closeIteration_failsOnly hp).mono (fun _ hs => hs.2) fun _ he => he) hclose
      fun _ => follow_pageless h id (ho _ rfl)

/-- A request to leave the current page fails for want of a page only if the work on it does. -/
theorem onCurrentPage_pageless (hu : iv.Orderly u) (hplans : u.PlansTyped)
    {work : Id → Flow (Decision Landing)}
    (hwork : ∀ p ∈ iv.navigator.pages, FailsOnly (· = u) (work p.id) Fault.Pageless)
    (fromPage : Option Id) :
    FailsOnly (· = u) (iv.onCurrentPage fromPage work) Fault.Pageless := by
  have hlocate := locate_pageless h hu hplans
  refine .bind_yields .session fun t => .given (fun _ hs => hs.2.trans hs.1) fun ht => ?_
  subst ht
  refine .mono (P := (· = t)) (.ite (fun _ => ?_) fun _ => ?_) (fun _ hs => hs.1) fun _ he => he
  · exact .bind (warnOfDuplicate_pageless t fromPage) (keeps_warnOfDuplicate t fromPage)
      fun _ => hlocate
  · split
    · next page _ hpage =>
      obtain ⟨p, hp, rfl⟩ := exists_page (hu.1.page page hpage).1
      exact hwork p hp
    · exact hlocate

/-- Leaving a page forward never fails for want of a page. -/
theorem forward_pageless (hu : iv.Orderly u) (hplans : u.PlansTyped) (id : Id)
    (fromPage : Option Id) : FailsOnly (· = u) (iv.forward id fromPage) Fault.Pageless := by
  rw [forward_eq]
  refine onCurrentPage_pageless h hu hplans (fun p hp => ?_) fromPage
  refine .bind ((leave_pageless h id hp).startingAt (.refl hplans))
    (Q := fun _ _ => True) (fun _ _ _ _ _ => trivial) fun l => ?_
  exact .bind (settle_pageless l) (Q := fun _ _ => True) (fun _ _ _ _ _ => trivial) fun _ => .pure

/-- Leaving a page backward never fails for want of a page. -/
theorem backward_pageless (hu : iv.Orderly u) (hplans : u.PlansTyped) (fromPage : Option Id) :
    FailsOnly (· = u) (iv.backward fromPage) Fault.Pageless := by
  rw [backward_eq]
  refine onCurrentPage_pageless h hu hplans (fun p hp => ?_) fromPage
  refine .bind Navigator.announce_pageless Navigator.keeps_announce fun _ => ?_
  have hprevious := (h.previousPage_failsOnly hp).startingAt (.refl hplans)
  refine .bind (hprevious.mono (fun _ hs => hs) fun _ he => he.pageless)
    (Q := fun _ _ => True) (fun _ _ _ _ _ => trivial) fun l => ?_
  split
  · exact .pure
  · exact .bind_yields (.update (Q := fun _ _ => True) fun _ _ => trivial) fun _ => .pure

end Navigating

end Interview

/-! ## The store -/

namespace Store

variable {σ : Store} {s : Session} {id : Id}

theorem filePath_pageless (id : String) : Except.Pageless (filePath id) := by
  unfold filePath
  dsimp only
  split
  · exact .error fun _ hid => nomatch hid
  · split
    · exact .error fun _ hid => nomatch hid
    · split
      · exact .error fun _ hid => nomatch hid
      · split
        · exact .ok
        · exact .error fun _ hid => nomatch hid

theorem record_pageless (s : Session) : Except.Pageless s.record := by
  have horder : ∀ {α : Type} (r : Register α), Except.Pageless (Record.demandOrder r) :=
    fun _ => .demandComparable
  exact .bind (horder _) fun _ => .bind (horder _) fun _ => .bind (horder _) fun _ =>
    .bind (.forM fun _ => horder _) fun _ => .ok

theorem write_pageless (σ : Store) (s : Session) : Except.Pageless (σ.write s) := by
  cases σ with
  | memory _ => exact .ok
  | files _ => exact .bind (record_pageless s) fun _ => .bind (filePath_pageless _) fun _ => .ok

theorem load_pageless (σ : Store) (id : Id) : Except.Pageless (σ.load id) := by
  unfold load
  split
  · exact .ok
  · refine .error ?_
    cases hfault : σ.idFault? id with
    | none => exact fun _ hid => nomatch hid
    | some e =>
      unfold idFault? at hfault
      split at hfault
      · split at hfault <;> cases hfault
        exact fun _ hid => nomatch hid
      · split at hfault
        · cases hfault
        · cases hfault
        · next hpath =>
          cases hfault
          exact filePath_pageless _ _ hpath

theorem save_pageless (σ : Store) (s : Session) : Except.Pageless (σ.save s) := by
  refine .bind (load_pageless σ s.id) fun current => ?_
  split
  · exact .map (write_pageless σ _)
  · exact .error fun _ hid => nomatch hid

end Store

namespace Interview

variable {iv : Interview} {σ₀ σ : Store} {ids : List Id} {id : Id} {s : Session}

/-- A request whose work does not fail for want of a page does not fail for want of one. -/
theorem transact_pageless {α : Type} {work : Flow (Decision α)} (hs : σ.find? id = some s)
    (hwork : FailsOnly (· = s) work Fault.Pageless) :
    Except.Pageless (iv.transact σ id work undisturbed).reply := by
  unfold transact
  rw [Store.load_of_find? hs]
  dsimp only [undisturbed]
  rcases hperform : iv.perform work s with ⟨e | a, d⟩
  · exact .error (hwork _ e d rfl hperform)
  · unfold conclude
    dsimp only
    split
    · split
      · exact .ok
      · next e he => exact .error (Store.save_pageless σ _ e he)
    · exact .ok

/-- The plans of all sessions that a run leads to from an empty store have their declared types. -/
theorem Run.plansTyped (htyped : iv.survey.Typed) (hempty : ∀ id, σ₀.find? id = none)
    (hrun : iv.Run σ₀ ids σ) : Everywhere Session.PlansTyped σ :=
  hrun.everywhere_of_law (plansTypedLaw htyped) (fun _ _ hs => hs.same rfl)
    (fun _ _ => .of_forall_none fun j => Register.get?_empty j)
    (fun _ _ _ hs => hs.same rfl) (fun _ j hs => hs.dropPlan j) (.of_empty hempty)

/-- Stored sessions are well-formed. Whatever requests lead to from an empty store: an answer has
ended a session only if it has ended, and there is a reason exactly then; a session is nowhere only
if it has ended, and else its current page is a page of the survey and the last one of its history,
which is one of pages of the survey (`Session.Consistent`); every plan is one of an accepted battery
and its cursor is among its items (`Session.Seated`); and the version is the number of commits that
were made in the session's place. So no request to leave a page fails for want of a page. -/
theorem stored_wellFormed (htyped : iv.survey.Typed) (hdistinct : iv.survey.Distinct)
    (hempty : ∀ id, σ₀.find? id = none) (hrun : iv.Run σ₀ ids σ) (hs : σ.find? id = some s) :
    s.Consistent iv.survey ∧ s.Seated iv.survey ∧
    s.version = .int (ids.countP (σ.samePlace id) : Nat) ∧
    ∀ (g : Generator) (fromPage : Option Id) (page : Id),
      ((iv.drawing g).nextPage σ id fromPage).reply ≠ .error (.unknownPage page) ∧
      ((iv.drawing g).previousPage σ id fromPage).reply ≠ .error (.unknownPage page) := by
  have h : iv.navigator.Oriented :=
    .ofSurvey htyped hdistinct.pageIds hdistinct.pageIndexes _ _
  have horderly : iv.Orderly s := (hrun.orderly h hempty id s hs).property
  have hplans : s.PlansTyped := (hrun.plansTyped htyped hempty id s hs).property
  refine ⟨horderly.1, horderly.2, hrun.version_eq hempty hs, fun g fromPage page => ⟨?_, ?_⟩⟩
  · have hforward := @forward_pageless (iv.drawing g) s h horderly hplans id fromPage
    exact fun hpage => transact_pageless hs hforward _ hpage page rfl
  · have hbackward := @backward_pageless (iv.drawing g) s h horderly hplans fromPage
    exact fun hpage => transact_pageless hs hbackward _ hpage page rfl

end Interview

open Sample.TwoBrands in
/-- The session of a respondent who is to rate the second brand, after four commits. -/
theorem Interview.stored_wellFormed_twoBrands :
    let s := onBrand 1 [ratePage, buyPage] ratePage 4
    again.find? demo = some s ∧ s.Consistent interview.survey ∧ s.Seated interview.survey ∧
    s.version = .int ([demo, demo, demo, demo].countP (again.samePlace demo) : Nat) ∧
    ∀ (g : Generator) (fromPage : Option Id) (page : Id),
      ((interview.drawing g).nextPage again demo fromPage).reply ≠ .error (.unknownPage page) ∧
      ((interview.drawing g).previousPage again demo fromPage).reply ≠
        .error (.unknownPage page) := by
  intro s
  obtain ⟨hrun, hs⟩ := run_again
  generalize again = σ at hrun hs ⊢
  exact ⟨hs, stored_wellFormed typed distinct Store.find?_emptyMemory hrun hs⟩

end Questionnaire
