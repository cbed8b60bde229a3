import Questionnaire.Proofs.Interview.Keeping
import Questionnaire.Proofs.Route.Landing
import Questionnaire.Proofs.Store.Slots

/-!
# Where a session is

Whether a survey can be navigated does not depend on the session (`Navigator.reads_announce`), and
the position is read off the session alone (`Interview.reads_whereabouts`); if the survey can be
navigated, it is where the fields of the session say (`Interview.reads_position`). Leaving a page
leads to a page under whose id something can be kept (`Interview.leave_keyed`,
`Navigator.previousPage_keyed`), so the position after it can be told
(`Interview.exists_positionIn`).
-/

namespace Questionnaire

open Flow

theorem Value.isCompound_of_agrees {v w : Value} (h : v.agrees w = true) :
    v.isCompound = w.isCompound := by
  have hcanon : ∀ u : Value, u.canonical.isCompound = u.isCompound := by
    intro u
    cases u with
    | float x => simp only [canonical]; split <;> rfl
    | _ => simp [canonical, isCompound]
  rw [← hcanon v, agrees_iff.1 h, hcanon w]

/-- The page of a landing is one under whose id something can be kept. -/
def Landing.Keyed (l : Landing) : Prop := ∀ id, l.pageId = some id → id.isCompound = false

theorem Landing.keyed_on {id : Id} (h : id.isCompound = false) (i : Option Iteration) :
    (Landing.on id i).Keyed := by
  intro j hj
  have hj : id.given? = some j := hj
  cases id <;> cases hj <;> exact h

theorem Landing.keyed_finished : Landing.finished.Keyed := fun _ h => nomatch h

theorem Landing.keyed_nowhere : Landing.nowhere.Keyed := fun _ h => nomatch h

/-! ## Reading the position -/

theorem RoleTable.reads_announceAll (survey : Survey) :
    ∀ (l : List Battery) (t : RoleTable), ∃ r, (announceAll survey t l).Reads fun _ => r
  | [], _ => ⟨.ok (), .pure ()⟩
  | b :: r, t => by
    obtain ⟨rest, hrest⟩ := reads_announceAll survey r (t.add survey b)
    exact ⟨_, .bind (.ofResult _) fun _ => .bind (.logAll _) fun _ => hrest⟩

namespace Navigator

variable {nav : Navigator}

/-- Whether a survey can be navigated does not depend on the session. -/
theorem reads_announce (nav : Navigator) : ∃ r, nav.announce.Reads fun _ => r := by
  obtain ⟨rest, hrest⟩ := RoleTable.reads_announceAll nav.survey nav.survey.batteries ⟨[]⟩
  exact ⟨_, .bind (.ofResult _) fun _ => .bind (.ofResult _) fun _ => .bind (.ofResult _)
    fun _ => hrest⟩

/-- Whether a survey can be navigated. -/
def announced (nav : Navigator) : Except Fault Unit := (nav.announce.perform default).1

theorem reads_announced (nav : Navigator) : nav.announce.Reads fun _ => nav.announced := by
  obtain ⟨r, hr⟩ := nav.reads_announce
  exact hr.congr fun _ => (hr default).1.symm

theorem announce_ensures {P : Session → Prop} : Ensures P nav.announce fun _ s =>
    P s ∧ nav.announced = .ok () :=
  .of_reads nav.reads_announced

/-- In a survey that can be navigated, something can be kept under the ids of all pages. -/
theorem isCompound_of_announced (h : nav.announced = .ok ()) :
    ∀ p ∈ nav.survey.pages, p.id.isCompound = false := by
  have hpages : Ensures (fun _ => True) nav.announce fun _ _ =>
      ∀ p ∈ nav.survey.pages, p.id.isCompound = false := by
    refine .bind Keeps.demandComparable fun _ => .bind Ensures.demandKeys fun _ => ?_
    refine .given (fun _ hs => hs.2) fun hkeys _ _ _ _ _ p hp => ?_
    exact hkeys p.id (List.mem_map_of_mem hp)
  exact hpages default () (nav.announce.perform default).2 trivial (Prod.ext h rfl)

end Navigator

namespace Interview

variable {iv : Interview} {s : Session}

/-- Where a request for the position finds a session. -/
def whereabouts (iv : Interview) (s : Session) : Except Fault Landing :=
  if s.isCompleted then .ok (endedPosition s)
  else
    match s.currentPage with
    | none => .ok (endedPosition s)
    | some page =>
      iv.navigator.announced.bind fun _ => (iv.navigator.iterationIn page s).map (.on page)

/-- The position of a session, if the survey can be navigated. -/
def positionIn (iv : Interview) (s : Session) : Except Fault Landing :=
  if s.isCompleted then .ok (endedPosition s)
  else
    match s.currentPage with
    | none => .ok (endedPosition s)
    | some page => (iv.navigator.iterationIn page s).map (.on page)

theorem reads_whereabouts (iv : Interview) : iv.position.Reads iv.whereabouts := by
  refine (Reads.bind (q := fun t s =>
    if t.isCompleted then .ok (endedPosition t)
    else
      match t.currentPage with
      | none => .ok (endedPosition t)
      | some page =>
        iv.navigator.announced.bind fun _ => (iv.navigator.iterationIn page s).map (.on page))
    .session fun t => ?_).congr fun s => rfl
  cases t.isCompleted with
  | true => exact .pure _
  | false =>
    cases t.currentPage with
    | none => exact .pure _
    | some page =>
      refine (iv.navigator.reads_announced.bind fun _ =>
        (Navigator.reads_iterationOf page).bind fun i => .pure _).congr fun s => ?_
      dsimp only
      cases iv.navigator.announced with
      | error e => rfl
      | ok _ => cases iv.navigator.iterationIn page s <;> rfl

theorem whereabouts_eq (h : iv.navigator.announced = .ok ()) (s : Session) :
    iv.whereabouts s = iv.positionIn s := by
  unfold whereabouts positionIn
  rw [h]
  rfl

theorem reads_position (h : iv.navigator.announce.Reads fun _ => .ok ()) :
    iv.position.Reads iv.positionIn :=
  iv.reads_whereabouts.congr (whereabouts_eq (h default).1)

/-- The position can be told if the survey can be navigated and something can be kept under the ids
of the current page and of the batteries. -/
theorem exists_positionIn (hkeys : ∀ b ∈ iv.survey.batteries, b.id.isCompound = false)
    (hs : s.Counted) (hpage : ∀ q, s.currentPage = some q → q.isCompound = false) :
    ∃ l, iv.positionIn s = .ok l := by
  unfold positionIn
  cases s.isCompleted with
  | true => exact ⟨_, rfl⟩
  | false =>
    cases hcur : s.currentPage with
    | none => exact ⟨_, rfl⟩
    | some page =>
      obtain ⟨i, hi⟩ : ∃ i, iv.navigator.iterationIn page s = .ok i :=
        Navigator.exists_iterationIn (hpage page hcur)
          (fun b _ hb => hkeys b (proper_navigator.accepts_of_roleOf? hb).mem) hs
      exact ⟨.on page i, by simp [hi, Except.map]⟩

end Interview

/-! ## Where leaving a page leads -/

namespace Navigator

variable {nav : Navigator} {P : Session → Prop}

theorem roleOf_ensures (id : Id) : Ensures P (nav.roleOf id) fun o s =>
    (P s ∧ id.isCompound = false) ∧ o = nav.roles.roleOf? id :=
  .bind Ensures.demandKeys fun _ => .pure fun _ h => ⟨⟨h.1, h.2 id (.head _)⟩, rfl⟩

/-- Arriving at a page looks for its role, so something can be kept under its id. -/
theorem arriveWithin_keyed : ∀ (fuel : Nat) (id : Option Id),
    Ensures (fun _ => True) (nav.arriveWithin fuel id) fun l _ => l.Keyed
  | 0, none | _ + 1, none => .pure fun _ _ => Landing.keyed_finished
  | 0, some _ => .throw
  | fuel + 1, some id => by
    refine .bind (roleOf_ensures id) fun o => .given (fun _ h => h.1.2) fun hid => ?_
    split
    · next b =>
      refine .bind (Q := fun _ _ => True) (fun _ _ _ _ _ => trivial) fun x => ?_
      refine .bind Keeps.ofResult fun _ => .ite (fun _ => ?_) fun _ => ?_
      · exact .bind Keeps.ofResult fun _ => .pure fun _ _ => Landing.keyed_on hid _
      · refine .bind Keeps.log fun _ => .bind (preserves_nextInOrder b.endPageId).keeps fun id => ?_
        exact arriveWithin_keyed fuel id
    · exact .bind (preserves_iterationOf id).keeps fun _ => .pure fun _ _ => Landing.keyed_on hid _

/-- Arriving from behind looks for the role of the page as well. -/
theorem arriveBackWithin_keyed : ∀ (fuel : Nat) (id : Option Id),
    Ensures (fun _ => True) (nav.arriveBackWithin fuel id) fun l _ => l.Keyed
  | 0, none | _ + 1, none => .pure fun _ _ => Landing.keyed_nowhere
  | 0, some _ => .throw
  | fuel + 1, some id => by
    have hback (b : Battery) : Ensures (fun _ => True)
        (do nav.arriveBackWithin fuel (← nav.previousInOrder b.startPageId))
        fun l _ => l.Keyed :=
      .bind (preserves_previousInOrder _).keeps fun _ => arriveBackWithin_keyed fuel _
    refine .bind (roleOf_ensures id) fun o => .given (fun _ h => h.1.2) fun hid => ?_
    refine .mono (P := fun _ => True) ?_ (fun _ _ => trivial) fun _ _ h => h
    split
    · exact .pure fun _ _ => Landing.keyed_on hid _
    · next b _ =>
      refine .bind (preserves_planOf b.id).keeps fun o => ?_
      split
      · refine .ite (fun _ => hback b) fun _ => ?_
        exact .bind Keeps.ofResult fun _ => .pure fun _ _ => Landing.keyed_on hid _
      · exact hback b

/-- Something can be kept under the id of a page that is found if it can under those of all. -/
theorem isCompound_of_page? (hpages : ∀ p ∈ nav.survey.pages, p.id.isCompound = false) {id : Id}
    {p : Page} (h : nav.survey.page? id = some p) : id.isCompound = false := by
  have heq : p.id.equal id = true := List.find?_some (p := fun p : Page => p.id.equal id) h
  rw [← Value.isCompound_of_agrees (Value.agrees_of_equal heq)]
  exact hpages p (List.mem_of_find?_eq_some h)

/-- The battery of a page starts and ends on pages of the survey. -/
theorem Proper.isCompound_of_roleOf? (hnav : nav.Proper)
    (hpages : ∀ p ∈ nav.survey.pages, p.id.isCompound = false) {id : Id} {b : Battery}
    {role : LoopRole} (h : nav.roles.roleOf? id = some (b, role)) :
    b.startPageId.isCompound = false ∧ b.endPageId.isCompound = false := by
  obtain ⟨st, hst, rfl⟩ := hnav.accepts_of_roleOf? h
  have hids := (RoleTable.mem_batteries_of_mem_stretches hst).2
  unfold Survey.batteryPages? at hids
  split at hids
  · next start finish hstart hfinish =>
    exact ⟨isCompound_of_page? hpages hstart, isCompound_of_page? hpages hfinish⟩
  · cases hids

theorem keyed_none : Ensures (fun _ => True) (pure none : Flow (Option Landing))
    fun o _ => ∀ l, o = some l → l.Keyed :=
  .pure fun _ _ _ h => nomatch h

section Looping
variable (hnav : nav.Proper) (hpages : ∀ p ∈ nav.survey.pages, p.id.isCompound = false)
include hnav hpages

/-- Another iteration starts on a page of the survey. -/
theorem continueLoop_keyed (id : Id) : Ensures (fun _ => True) (nav.continueLoop id)
    fun o _ => ∀ l, o = some l → l.Keyed := by
  refine bind_roleOf ?_
  split
  · next b ho =>
    have hstart := (hnav.isCompound_of_roleOf? hpages ho).1
    refine .bind (preserves_planOf b.id).keeps fun o => ?_
    split
    · exact keyed_none
    · refine .bind Keeps.ofResult fun _ => .ite (fun _ => keyed_none) fun _ => ?_
      refine .bind Keeps.ofResult fun p => .bind (Keeps.update fun _ _ => trivial) fun _ => ?_
      refine .bind (Q := fun _ _ => True) (fun _ _ _ _ _ => trivial) fun q => ?_
      refine .bind Keeps.ofResult fun _ => .ite (fun _ => .bind Keeps.log fun _ => keyed_none)
        fun _ => ?_
      refine .bind Keeps.log fun _ => .bind Keeps.ofResult fun i => .pure fun _ _ l hl => ?_
      cases hl
      exact Landing.keyed_on hstart i
  · exact keyed_none

/-- The previous iteration ends on a page of the survey. -/
theorem stepBack_keyed (id : Id) : Ensures (fun _ => True) (nav.stepBack id)
    fun o _ => ∀ l, o = some l → l.Keyed := by
  refine bind_roleOf ?_
  split
  · next b ho =>
    have hend := (hnav.isCompound_of_roleOf? hpages ho).2
    refine .bind (preserves_planOf b.id).keeps fun o => ?_
    split
    · exact keyed_none
    · refine .bind Keeps.ofResult fun o => ?_
      split
      · exact keyed_none
      · refine .bind (Keeps.update fun _ _ => trivial) fun _ => ?_
        refine .bind Keeps.ofResult fun i => .pure fun _ _ l hl => ?_
        cases hl
        exact Landing.keyed_on hend i
  · exact keyed_none

theorem nextPage_keyed (id : Id) :
    Ensures (fun _ => True) (nav.nextPage id) fun l _ => l.Keyed := by
  refine .bind (preserves_around id).keeps fun _ => ?_
  refine .bind (continueLoop_keyed hnav hpages id) fun o => ?_
  split
  · exact .pure fun _ h => h _ rfl
  · refine .bind (preserves_nextInOrder id).keeps fun _ => ?_
    exact (arriveWithin_keyed _ _).mono (fun _ _ => trivial) fun _ _ h => h

theorem previousPage_keyed (id : Id) :
    Ensures (fun _ => True) (nav.previousPage id) fun l _ => l.Keyed := by
  refine .bind (preserves_around id).keeps fun _ => ?_
  refine .bind (stepBack_keyed hnav hpages id) fun o => ?_
  split
  · exact .pure fun _ h => h _ rfl
  · refine .bind (preserves_previousInOrder id).keeps fun _ => ?_
    exact (arriveBackWithin_keyed _ _).mono (fun _ _ => trivial) fun _ _ h => h

end Looping

theorem firstPage_keyed : Ensures (fun _ => True) nav.firstPage fun l _ => l.Keyed := by
  unfold firstPage
  split
  · exact .pure fun _ _ => Landing.keyed_finished
  · refine .bind (preserves_isShown _).keeps fun _ => .ite (fun _ => arriveWithin_keyed _ _)
      fun _ => .bind (preserves_nextInOrder _).keeps fun _ => arriveWithin_keyed _ _

end Navigator

namespace Interview

variable {iv : Interview}

theorem keyed_endedPosition (s : Session) : (endedPosition s).Keyed := fun _ h => nomatch h

/-- A jump leads to a page under whose id something can be kept. -/
theorem follow_keyed (id : Id) (outcome : JumpOutcome) :
    Ensures (fun _ => True) (iv.follow id outcome) fun l _ => l.Keyed := by
  refine .ite (fun _ => ?_) fun _ => ?_
  · -- The position of a session that was just ended is nowhere.
    have hended : Ensures (fun _ => True) (terminate outcome) fun _ s => s.isCompleted = true :=
      .bind Keeps.session fun _ => .bind Keeps.log fun _ => .update fun _ _ => rfl
    refine .bind hended fun _ => .bind .session fun s => ?_
    refine .ite (fun _ => .pure fun _ _ => keyed_endedPosition s) fun hopen => ?_
    exact .given (p := False) (fun t h => by rw [h.2, h.1] at hopen; cases hopen) False.elim
  · split
    · exact .bind Keeps.log fun _ => Navigator.arriveWithin_keyed _ _
    · exact .bind Keeps.log fun _ => .pure fun _ _ => Landing.keyed_finished

/-- Leaving a page forward leads to a page under whose id something can be kept. -/
theorem leave_keyed (id page : Id) :
    Ensures (fun _ => True) (iv.leave id page) fun l _ => l.Keyed := by
  refine .bind Navigator.announce_ensures fun _ => .given (fun _ hs => hs.2) fun hann => ?_
  have hnext : Ensures (fun _ => True) (iv.navigator.nextPage page) fun l _ => l.Keyed :=
    Navigator.nextPage_keyed proper_navigator (Navigator.isCompound_of_announced hann) page
  refine .mono (P := fun _ => True) ?_ (fun _ _ => trivial) fun _ _ h => h
  refine .bind (Navigator.preserves_continuesLoop page).keeps fun _ => ?_
  refine .ite (fun _ => hnext) fun _ => ?_
  refine .bind (keeps_jumpOnLeaving page) fun o => ?_
  split
  · exact hnext
  · refine .bind (Q := fun _ _ => True) (fun _ _ _ _ _ => trivial) fun _ => follow_keyed id _

/-- Leaving a page forward needs a survey that can be navigated. -/
theorem leave_announced {P : Session → Prop} (id page : Id) :
    Ensures P (iv.leave id page) fun _ _ => iv.navigator.announced = .ok () :=
  .bind Navigator.announce_ensures fun _ => .given (fun _ hs => hs.2) fun hann _ _ _ _ _ => hann

theorem settle_keyed {l : Landing} (hl : l.Keyed) : Ensures (fun _ => True) (settle l) fun _ s =>
    ∀ q, s.currentPage = some q → q.isCompound = false := by
  refine .ite (fun _ => ?_) fun _ => .update fun _ _ => hl
  exact .bind (.update (Q := fun _ s => s.currentPage = none) fun _ _ => rfl) fun _ =>
    .bind Keeps.session fun _ => Keeps.log.mono (fun _ hs => hs) fun _ s hs q hq => by
      rw [hs] at hq
      cases hq

/-! ## Requests to leave a page -/

variable {d d' : Desk} {id cur : Id} {fromPage : Option Id} {a : Decision Landing} {σ : Store}
  {s : Session}

/-- Leaving the current page of an open session is to be stored. It keeps the id and the version of
the session and its cursors among the items, it leads to a page under whose id something can be
kept, and the survey can be navigated. -/
theorem forward_ok (hcur : d.session.currentPage = some cur)
    (hopen : d.session.isCompleted = false) (hdup : isDuplicate d.session fromPage = false)
    (hcounted : d.session.Counted) (h : (iv.forward id fromPage).perform d = (.ok a, d')) :
    a.commit = true ∧ (d'.session.id = d.session.id ∧ d'.session.version = d.session.version) ∧
      d'.session.Counted ∧ (∀ q, d'.session.currentPage = some q → q.isCompound = false) ∧
      iv.navigator.announce.Reads fun _ => .ok () := by
  have law := (cursorLaw iv.survey).fixed d.session.id d.session.version
  have hkept := keeps_forward law id fromPage
    d a d' ⟨⟨rfl, rfl⟩, hcounted⟩ h
  rw [forward_eq, perform_onCurrentPage hcur hopen hdup] at h
  have hlanded : Ensures (fun _ => True) (iv.advance id cur) fun a s => a.commit = true ∧
      (∀ q, s.currentPage = some q → q.isCompound = false) ∧ iv.navigator.announced = .ok () := by
    refine .bind ((leave_keyed id cur).and (leave_announced id cur)) fun l => ?_
    refine .given (fun _ hl => hl) fun ⟨hl, hann⟩ => ?_
    refine .bind ((settle_keyed hl).mono (fun _ _ => trivial) fun _ _ hs => hs) fun _ => ?_
    exact .pure fun _ hs => ⟨rfl, hs, hann⟩
  obtain ⟨hcommit, hpage, hann⟩ := hlanded d a d' trivial h
  exact ⟨hcommit, hkept.1, hkept.2, hpage, iv.navigator.reads_announced.congr fun _ => hann⟩

theorem reads_locate (iv : Interview) :
    iv.locate.Reads fun s => (iv.whereabouts s).map (⟨·, false⟩) := by
  refine (iv.reads_whereabouts.bind fun l => .pure _).congr fun s => ?_
  cases iv.whereabouts s <;> rfl

/-- A request to leave another page than the current one is answered by the position. -/
theorem forward_duplicate {page : Id} (hdup : isDuplicate d.session (some page) = true) :
    ((iv.forward id (some page)).perform d).1 = (iv.whereabouts d.session).map (⟨·, false⟩) := by
  unfold forward
  rw [perform_bind, perform_session]
  simp only [hdup, if_true]
  exact ((Reads.log _).bind fun _ => iv.reads_locate) d |>.1

/-- The position of a stored session is the reply to the request for it. -/
theorem currentPosition_reply (hs : σ.find? id = some s) :
    (iv.currentPosition σ id).reply = iv.whereabouts s := by
  unfold currentPosition transact
  rw [Store.load_of_find? hs]
  have hread : (iv.perform iv.locate s).1 = (iv.whereabouts s).map (⟨·, false⟩) :=
    (iv.reads_locate _).1
  rcases hperform : iv.perform iv.locate s with ⟨r, d⟩
  rw [hperform] at hread
  dsimp only at hread ⊢
  rw [hperform, hread]
  cases iv.whereabouts s <;> rfl

end Interview

end Questionnaire
