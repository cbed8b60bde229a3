import Questionnaire.Proofs.Page.Visible
import Questionnaire.Proofs.Route.Landing

/-!
# Why navigation fails

Navigation of a survey whose parts have the declared types fails for one reason only, if the plans
of the session have their declared types as well: there is no verdict on whether a page is shown
(`Navigator.Unjudged`). In particular no page is unknown, no item is missing, and the batteries that
are passed over come to an end: arriving leads from page to page in one direction, and there are no
more pages than fuel (`Oriented.arriveWithin_failsOnly`, `Oriented.arriveBackWithin_failsOnly`).

Navigation never changes the answers, the embedded data and the types of the plans
(`Session.Steady`), so each part of it starts from what the others start from.
-/

namespace Questionnaire

open Flow

/-! ## Sessions that navigation leaves as they are, but for the plans -/

namespace Session.PlansTyped

variable {s : Session} {p : LoopPlan} {c : Nat}

theorem of_forall_none (h : ∀ id, s.plan? id = none) : s.PlansTyped where
  cursor id p hp := by rw [h id] at hp; cases hp
  keys id p hp := by rw [h id] at hp; cases hp

theorem setPlan (h : s.PlansTyped) (id : Id) (hc : p.CursorAt c)
    (hkeys : ∀ item ∈ p.items, item.key.isText = true) : (s.setPlan id p).PlansTyped where
  cursor := Session.Counted.setPlan h.cursor id hc
  keys j q hq := by
    rw [plan?_setPlan] at hq
    split at hq
    · cases hq
      exact hkeys
    · exact h.keys j q hq

theorem dropPlan (h : s.PlansTyped) (id : Id) : (s.dropPlan id).PlansTyped where
  cursor := Session.Counted.dropPlan h.cursor
  keys j q hq := by
    rw [plan?_dropPlan] at hq
    split at hq
    · cases hq
    · exact h.keys j q hq

/-- Nothing but the plans matters to the types of the plans. -/
theorem same {t : Session} (h : s.PlansTyped) (hplans : t.plans = s.plans) : t.PlansTyped where
  cursor id p hp := h.cursor id p (by rwa [plan?, ← hplans])
  keys id p hp := h.keys id p (by rwa [plan?, ← hplans])

end Session.PlansTyped

/-- Plans go on to have their declared types. -/
theorem plansTypedLaw {survey : Survey} (h : survey.Typed) :
    PlanLaw survey Session.PlansTyped where
  cursor hs _ hp := hs.cursor _ _ hp
  made hs hb _ hp := hp.cursor.elim fun _ hc =>
    hs.setPlan _ hc fun _ hitem => h.isText_key hb.mem (hp.items.subset hitem)
  moved hs _ hp _ hn _ := hs.setPlan _ (LoopPlan.cursorAt_moved hn) fun _ => hs.keys _ _ hp _
  same hs h := hs.same h.plans

/-- A session with the answers and the embedded data of another one, whose plans have their declared
types. -/
def Session.Steady (u s : Session) : Prop := u.SameData s ∧ s.PlansTyped

theorem Session.Steady.law {survey : Survey} (h : survey.Typed) (u : Session) :
    CursorLaw survey (fun _ => True) u.Steady :=
  (plansTypedLaw h).toCursorLaw.beside fun _ _ _ hs => ⟨hs.responses, hs.embedded⟩

theorem Session.Steady.refl {s : Session} (h : s.PlansTyped) : s.Steady s := ⟨⟨rfl, rfl⟩, h⟩

namespace Navigator

/-- The fault of a page on which there is no verdict for the respondent of a session. -/
def Unjudged (nav : Navigator) (u : Session) (e : Fault) : Prop :=
  nav.skipHidden = true ∧ ∃ p ∈ nav.pages, nav.verdict u p = .error e

/-- The number of pages behind a place. -/
def pagesBehind (nav : Navigator) (r : Int) : Nat := nav.pages.countP fun q => decide (r < q.rank)

/-- The number of pages before a place. -/
def pagesBefore (nav : Navigator) (r : Int) : Nat := nav.pages.countP fun q => decide (q.rank < r)

variable {nav : Navigator} {u : Session} {p q : Page} {b : Battery} {role : LoopRole} {α : Type}
  {r : Int} {E : Fault → Prop}

/-- A page behind a place counts there, but not behind itself. -/
theorem pagesBehind_lt (hq : q ∈ nav.pages) (hr : r < q.rank) {r' : Int} (hle : q.rank ≤ r') :
    nav.pagesBehind r' < nav.pagesBehind r := by
  unfold pagesBehind
  rw [List.countP_eq_length_filter, List.countP_eq_length_filter]
  have hfilter : nav.pages.filter (fun q => decide (r' < q.rank)) =
      (nav.pages.filter fun q => decide (r < q.rank)).filter fun q => decide (r' < q.rank) := by
    rw [List.filter_filter]
    refine List.filter_congr fun p _ => ?_
    rw [← Bool.decide_and, decide_eq_decide]
    omega
  rw [hfilter, List.length_filter_lt_length_iff_exists]
  exact ⟨q, by simp [hq, hr], by simp; omega⟩

/-- A page before a place counts there, but not before itself. -/
theorem pagesBefore_lt (hq : q ∈ nav.pages) (hr : q.rank < r) {r' : Int} (hle : r' ≤ q.rank) :
    nav.pagesBefore r' < nav.pagesBefore r := by
  unfold pagesBefore
  rw [List.countP_eq_length_filter, List.countP_eq_length_filter]
  have hfilter : nav.pages.filter (fun q => decide (q.rank < r')) =
      (nav.pages.filter fun q => decide (q.rank < r)).filter fun q => decide (q.rank < r') := by
    rw [List.filter_filter]
    refine List.filter_congr fun p _ => ?_
    rw [← Bool.decide_and, decide_eq_decide]
    omega
  rw [hfilter, List.length_filter_lt_length_iff_exists]
  exact ⟨q, by simp [hq, hr], by simp; omega⟩

/-- Work that has a result on every session, described by its plans, does not fail. -/
theorem failsOnly_of_planned {P : Session → Prop} {f : Flow α} {Q : Session → α → Session → Prop}
    (h : ∀ s, P s → Yields (s.Planned s.plan?) f (Q s)) : FailsOnly P f E :=
  fun d _ _ hP hd => (h d.session hP).failsOnly d _ _ d.session.planned_self hd

namespace Oriented

/-! ## Looking for the next page -/

theorem isShown_failsOnly (h : nav.Oriented) (hp : p ∈ nav.pages) :
    FailsOnly u.SameData (nav.isShown p.id) (nav.Unjudged u) := by
  refine .ite (fun _ => .pure) fun hbound => ?_
  have hskip : nav.skipHidden = true := by
    rw [Bool.or_eq_false_iff] at hbound
    simpa using hbound.1
  obtain ⟨before, after, hsplit⟩ := List.append_of_mem hp
  refine .bind_known (h.yields_around hsplit) <| .bind_yields .session fun t => ?_
  refine .given (fun s hs => hs.2 ▸ hs.1.context nav.survey)
    fun (hcontext : t.context nav.survey = u.context nav.survey) => ?_
  rw [hcontext]
  refine .of_reads ((u.context nav.survey).reads_shows nav.quiet p.visibleIf) fun _ e _ he => ?_
  refine ⟨hskip, p, hp, ?_⟩
  rw [verdict, Context.judgeOpenAuthored_fst]
  exact he

theorem firstShown_failsOnly (h : nav.Oriented) : ∀ l : List Page, (∀ q ∈ l, q ∈ nav.pages) →
    FailsOnly u.SameData (nav.firstShown l) (nav.Unjudged u)
  | [], _ => .pure
  | p :: r, hl => .bind (h.isShown_failsOnly (hl p (.head _))) (preserves_isShown p.id).keeps
      fun _ => .ite (fun _ => .pure) fun _ =>
        h.firstShown_failsOnly r fun q hq => hl q (.tail _ hq)

theorem nextInOrder_failsOnly (h : nav.Oriented) (hp : p ∈ nav.pages) :
    FailsOnly u.SameData (nav.nextInOrder p.id) (nav.Unjudged u) := by
  obtain ⟨before, after, hsplit⟩ := List.append_of_mem hp
  exact .bind_known (h.yields_around hsplit) <|
    h.firstShown_failsOnly after fun q hq => by simp [hsplit, hq]

theorem previousInOrder_failsOnly (h : nav.Oriented) (hp : p ∈ nav.pages) :
    FailsOnly u.SameData (nav.previousInOrder p.id) (nav.Unjudged u) := by
  obtain ⟨before, after, hsplit⟩ := List.append_of_mem hp
  refine .bind_known (h.yields_around hsplit) <| h.firstShown_failsOnly _ fun q hq => ?_
  rw [hsplit]
  exact List.mem_append_left _ (List.mem_reverse.1 hq)

/-! ## Plans -/

/-- The plan of a battery can be looked up. -/
theorem plan_yields {P : Session → Prop} (h : nav.Oriented) (hb : b ∈ nav.survey.batteries) :
    Yields P (planOf b.id) fun o s => P s ∧ s.plan? b.id = o := by
  have htext := h.typed.batteryId b hb
  refine .bind (yields_demandKeys fun id hid => List.mem_singleton.1 hid ▸ htext) fun _ => ?_
  exact .bind .session fun _ => .pure fun s hs => ⟨hs.1, by rw [hs.2]⟩

theorem iterationOf_failsOnly (h : nav.Oriented) (hp : p ∈ nav.pages) :
    FailsOnly Session.PlansTyped (nav.iterationOf p.id) E := by
  refine failsOnly_of_planned (Q := fun _ _ _ => True) fun s hs => ?_
  refine .bind_known (h.yields_roleOf hp) ?_
  cases hrole : nav.roles.ownerOf? p.id with
  | none => exact .pure fun _ _ => trivial
  | some owner =>
    refine .bind_known (h.yields_planOf (h.mem_batteries hrole)) ?_
    cases hplan : s.plan? owner.1.id with
    | none => exact .pure fun _ _ => trivial
    | some plan =>
      obtain ⟨i, hi⟩ := (hs.cursor _ _ hplan).elim fun c hc => hc.exists_iteration
      exact (Yields.ofOk hi).mono (fun _ ht => ht) fun _ _ _ => trivial

theorem enter_failsOnly (h : nav.Oriented) (hb : b ∈ nav.survey.batteries) :
    FailsOnly Session.PlansTyped (nav.enter b) E := by
  intro d e d' hs hd
  cases hplan : d.session.plan? b.id with
  | none => exact (h.yields_enter hb hplan).failsOnly d e d' d.session.planned_self hd
  | some plan =>
    obtain ⟨c, hc⟩ := hs.cursor _ _ hplan
    exact (h.yields_enter_again hb hplan hc (hs.keys_not_compound hplan)).failsOnly
      d e d' d.session.planned_self hd

theorem continueLoop_failsOnly (h : nav.Oriented) (hp : p ∈ nav.pages) :
    FailsOnly Session.PlansTyped (nav.continueLoop p.id) E :=
  failsOnly_of_planned fun _ hs => h.continueLoop_yields hs hp

theorem stepBack_failsOnly (h : nav.Oriented) (hp : p ∈ nav.pages) :
    FailsOnly Session.PlansTyped (nav.stepBack p.id) E := by
  refine failsOnly_of_planned (Q := fun _ _ _ => True) fun s hs => ?_
  refine .bind_known (h.yields_roleOf hp) ?_
  split
  · next b hrole =>
    refine .bind_known (h.yields_planOf (h.mem_batteries hrole)) ?_
    cases hplan : s.plan? b.id with
    | none => exact .pure fun _ _ => trivial
    | some plan =>
      obtain ⟨c, hc⟩ := hs.cursor _ _ hplan
      refine .bind_known (.ofOk hc.rewind) ?_
      by_cases hz : min c (plan.items.length - 1) = 0
      · rw [if_pos hz]
        exact .pure fun _ _ => trivial
      · rw [if_neg hz]
        have hback : (plan.moved (min c (plan.items.length - 1) - 1)).CursorAt
            (min c (plan.items.length - 1) - 1) := LoopPlan.cursorAt_moved (by omega)
        obtain ⟨i, hi⟩ := hback.exists_iteration
        exact .bind (.update (Q := fun _ _ => True) fun _ _ => trivial) fun _ =>
          .bind_known (.ofOk hi) <| .pure fun _ _ => trivial
  · exact .pure fun _ _ => trivial

theorem closeIteration_failsOnly (h : nav.Oriented) (hp : p ∈ nav.pages) :
    FailsOnly Session.PlansTyped (nav.closeIteration p.id) E := by
  refine failsOnly_of_planned (Q := fun _ _ _ => True) fun s hs => ?_
  refine .bind_known (h.yields_roleOf hp) ?_
  split
  · next b hrole =>
    refine .bind_known (h.yields_planOf (h.mem_batteries hrole)) ?_
    cases hplan : s.plan? b.id with
    | none => exact .pure fun _ _ => trivial
    | some plan =>
      obtain ⟨c, hc⟩ := hs.cursor _ _ hplan
      refine .bind_known (.ofOk hc.isComplete) <| .ite (fun _ => .pure fun _ _ => trivial)
        fun _ => ?_
      exact .bind (.update (Q := fun _ _ => True) fun _ _ => trivial) fun _ =>
        .bind .log fun _ => .pure fun _ _ => trivial
  · exact .pure fun _ _ => trivial

theorem continuesLoop_failsOnly (h : nav.Oriented) (hp : p ∈ nav.pages) :
    FailsOnly Session.PlansTyped (nav.continuesLoop p.id) E :=
  failsOnly_of_planned fun _ hs => h.yields_continuesLoop hs hp

/-! ## Moving forward -/

/-- Arriving leads on from page to page, so it comes to an end if there are no more pages behind
than fuel. -/
theorem arriveWithin_failsOnly (h : nav.Oriented) : ∀ (fuel : Nat) {r : Int} (o : Option Id),
    nav.Behind r o → nav.pagesBehind r ≤ fuel →
      FailsOnly u.Steady (nav.arriveWithin fuel o) (nav.Unjudged u)
  | 0, _, none, _, _ | _ + 1, _, none, _, _ => .pure
  | 0, r, some id, ho, hfuel => by
    obtain ⟨p, hp, -, hr⟩ := ho id rfl
    have := pagesBehind_lt hp hr (Int.le_refl _)
    omega
  | fuel + 1, r, some id, ho, hfuel => by
    obtain ⟨p, hp, rfl, hr⟩ := ho id rfl
    refine .bind_known (h.yields_roleOf hp) ?_
    split
    · next b hrole =>
      obtain ⟨p', hp', hid, -, -, -, -, finish, hfinish, hfid, hle⟩ :=
        h.exists_bounds ((h.roleOf?_eq hp).trans hrole)
      cases h.inOrder.eq_of_id hp' hp hid
      have henter : Ensures u.Steady (nav.enter b) fun x s =>
          u.Steady s ∧ s.plan? b.id = some x.1 :=
        (preserves_enter (Session.Steady.law h.typed u).arrival (h.accepts hrole)).keeps.and
          enter_stored
      refine .bind ((h.enter_failsOnly (h.mem_batteries hrole)).mono (fun _ hs => hs.2)
        fun _ he => he) henter fun x => ?_
      refine .given (fun s hs => hs.1.2.cursor _ _ hs.2) fun ⟨c, hc⟩ => ?_
      refine .bind_known (.ofOk hc.isComplete) <| .ite (fun _ => ?_) fun _ => ?_
      · obtain ⟨i, hi⟩ := hc.exists_iteration
        exact .bind_known (.ofOk hi) .pure
      · rw [← hfid]
        have hnext : Ensures u.Steady (nav.nextInOrder finish.id)
            fun o s => u.Steady s ∧ nav.Behind finish.rank o :=
          (preserves_nextInOrder finish.id).keeps.and (h.nextInOrder_behind hfinish)
        refine .bind_yields .log fun _ => .bind ?_ (hnext.mono (fun _ hs => hs.1)
          fun _ _ hs => hs) fun o => .given (fun _ hs => hs.2) fun ho => ?_
        · exact (h.nextInOrder_failsOnly hfinish).mono (fun _ hs => hs.1.1) fun _ he => he
        · have hless := pagesBehind_lt hp hr hle
          exact (h.arriveWithin_failsOnly fuel o ho (by omega)).mono (fun _ hs => hs.1)
            fun _ he => he
    · exact .bind ((h.iterationOf_failsOnly hp).mono (fun _ hs => hs.2) fun _ he => he)
        (preserves_iterationOf p.id).keeps fun _ => .pure

theorem arrive_failsOnly (h : nav.Oriented) {o : Option Id} (ho : nav.Behind r o) :
    FailsOnly u.Steady (nav.arrive o) (nav.Unjudged u) := by
  have hle : nav.pagesBehind r ≤ nav.pages.length := List.countP_le_length
  exact h.arriveWithin_failsOnly _ o ho (by omega)

/-- A page of the survey is behind some place. -/
theorem behind_of_mem (h : nav.Oriented) (hp : p ∈ nav.pages) :
    nav.Behind (p.rank - 1) p.id.given? := by
  intro id hid
  rw [h.inOrder.given?_id hp] at hid
  exact ⟨p, hp, Option.some.inj hid, by omega⟩

/-- The next page that is shown is arrived at. -/
theorem onward_failsOnly (h : nav.Oriented) (hp : p ∈ nav.pages) :
    FailsOnly u.Steady (do nav.arrive (← nav.nextInOrder p.id)) (nav.Unjudged u) := by
  have hnext : Ensures u.Steady (nav.nextInOrder p.id)
      fun o s => u.Steady s ∧ nav.Behind p.rank o :=
    (preserves_nextInOrder p.id).keeps.and (h.nextInOrder_behind hp)
  refine .bind ((h.nextInOrder_failsOnly hp).mono (fun _ hs => hs.1) fun _ he => he) hnext
    fun o => .given (fun _ hs => hs.2) fun ho => ?_
  exact (h.arrive_failsOnly ho).mono (fun _ hs => hs.1) fun _ he => he

theorem firstPage_failsOnly (h : nav.Oriented) :
    FailsOnly u.Steady nav.firstPage (nav.Unjudged u) := by
  unfold firstPage
  split
  · exact .pure
  · next p rest hpages =>
    have hp : p ∈ nav.pages := hpages ▸ .head rest
    refine .bind ((h.isShown_failsOnly hp).mono (fun _ hs => hs.1) fun _ he => he)
      (preserves_isShown p.id).keeps fun _ => .ite (fun _ => ?_) fun _ => h.onward_failsOnly hp
    exact h.arrive_failsOnly (h.behind_of_mem hp)

/-- Leaving a page forward fails only for want of a verdict. -/
theorem nextPage_failsOnly (h : nav.Oriented) (hp : p ∈ nav.pages) :
    FailsOnly u.Steady (nav.nextPage p.id) (nav.Unjudged u) := by
  obtain ⟨before, after, hsplit⟩ := List.append_of_mem hp
  refine .bind_known (h.yields_around hsplit) ?_
  have hcontinue : Keeps u.Steady (nav.continueLoop p.id) :=
    (preserves_continueLoop (Session.Steady.law h.typed u) h.proper p.id).keeps
  refine .bind ((h.continueLoop_failsOnly hp).mono (fun _ hs => hs.2) fun _ he => he) hcontinue
    fun o => ?_
  split
  · exact .pure
  · exact h.onward_failsOnly hp

/-! ## Moving backward -/

theorem arriveBackWithin_failsOnly (h : nav.Oriented) : ∀ (fuel : Nat) {r : Int} (o : Option Id),
    nav.Ahead r o → nav.pagesBefore r ≤ fuel →
      FailsOnly u.Steady (nav.arriveBackWithin fuel o) (nav.Unjudged u)
  | 0, _, none, _, _ | _ + 1, _, none, _, _ => .pure
  | 0, r, some id, ho, hfuel => by
    obtain ⟨p, hp, -, hr⟩ := ho id rfl
    have := pagesBefore_lt hp hr (Int.le_refl _)
    omega
  | fuel + 1, r, some id, ho, hfuel => by
    obtain ⟨p, hp, rfl, hr⟩ := ho id rfl
    refine .bind_known (h.yields_roleOf hp) ?_
    split
    · exact .pure
    · next b role hrole =>
      obtain ⟨p', hp', hid, start, hstart, hsid, hle, -⟩ :=
        h.exists_bounds ((h.roleOf?_eq hp).trans hrole)
      cases h.inOrder.eq_of_id hp' hp hid
      have hback : FailsOnly u.Steady
          (do nav.arriveBackWithin fuel (← nav.previousInOrder b.startPageId))
          (nav.Unjudged u) := by
        rw [← hsid]
        have hprevious : Ensures u.Steady (nav.previousInOrder start.id)
            fun o s => u.Steady s ∧ nav.Ahead start.rank o :=
          (preserves_previousInOrder start.id).keeps.and (h.previousInOrder_ahead hstart)
        refine .bind ((h.previousInOrder_failsOnly hstart).mono (fun _ hs => hs.1) fun _ he => he)
          hprevious fun o => .given (fun _ hs => hs.2) fun ho => ?_
        have hless := pagesBefore_lt hp hr hle
        exact (h.arriveBackWithin_failsOnly fuel o ho (by omega)).mono (fun _ hs => hs.1)
          fun _ he => he
      refine .bind_yields (h.plan_yields (h.mem_batteries hrole)) fun o => ?_
      split
      · next plan =>
        refine .given (fun s hs => hs.1.2.cursor _ _ hs.2) fun ⟨c, hc⟩ => ?_
        refine .ite (fun _ => hback.mono (fun _ hs => hs.1) fun _ he => he) fun _ => ?_
        obtain ⟨i, hi⟩ := hc.exists_iteration
        exact .bind_known (.ofOk hi) .pure
      · exact hback.mono (fun _ hs => hs.1) fun _ he => he

/-- Leaving a page backward fails only for want of a verdict. -/
theorem previousPage_failsOnly (h : nav.Oriented) (hp : p ∈ nav.pages) :
    FailsOnly u.Steady (nav.previousPage p.id) (nav.Unjudged u) := by
  obtain ⟨before, after, hsplit⟩ := List.append_of_mem hp
  refine .bind_known (h.yields_around hsplit) ?_
  have hstep : Keeps u.Steady (nav.stepBack p.id) :=
    (preserves_stepBack (Session.Steady.law h.typed u) h.proper fun _ _ => trivial).keeps
  have hprevious : Ensures u.Steady (nav.previousInOrder p.id)
      fun o s => u.Steady s ∧ nav.Ahead p.rank o :=
    (preserves_previousInOrder p.id).keeps.and (h.previousInOrder_ahead hp)
  refine .bind ((h.stepBack_failsOnly hp).mono (fun _ hs => hs.2) fun _ he => he) hstep fun o => ?_
  split
  · exact .pure
  · refine .bind ((h.previousInOrder_failsOnly hp).mono (fun _ hs => hs.1) fun _ he => he)
      hprevious fun o => .given (fun _ hs => hs.2) fun ho => ?_
    have hle : nav.pagesBefore p.rank ≤ nav.pages.length := List.countP_le_length
    exact (h.arriveBackWithin_failsOnly _ o ho (by omega)).mono (fun _ hs => hs.1) fun _ he => he

end Oriented

end Navigator

end Questionnaire
