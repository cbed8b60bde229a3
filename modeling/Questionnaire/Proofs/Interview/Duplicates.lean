import Questionnaire.Proofs.Interview.Advancing
import Questionnaire.Proofs.Interview.Plans
import Questionnaire.Proofs.Interview.Position
import Questionnaire.Proofs.Interview.Runs

/-!
# Duplicate requests

Any number of callers ask at once to leave the page on which a session stands. Each call loads the
session in one atomic step and concludes in another, and the steps come in any order (`Rush.act`).
Two guards keep the session from being moved twice: a call that loads the session after it was moved
sees that it names another page than the current one, and a call that loaded it before is refused,
since the version is no longer the stored one.

So a rush is in one of two phases. At first nothing is stored, and every call that ended has failed
as the step itself fails (`Rush.Open`). Once a call has stored the session, no other one does
(`Rush.Closed`). `moved_at_most_once` reads off what every caller is told, and since a single step
moves a cursor by one item at most (`forward_onward`), that no cursor advances twice.
-/

namespace Questionnaire

open Flow

namespace Interview

/-! ## Rushes -/

/-- How far a call has come: it has yet to load the session, it holds the result of its work on the
loaded session, or it has ended with a reply. -/
inductive Call
  | waiting
  | working (result : Except Fault (Decision Landing) × Desk)
  | done (reply : Except Fault Landing)

/-- A store with the calls on it, and the callers whose sessions were stored, in order. -/
structure Rush (Caller : Type) where
  store : Store
  calls : Caller → Call
  stored : List Caller

/-- The work of a call to leave a page, with the generator that it draws from. -/
def work (iv : Interview) (id page : Id) (g : Generator) (s : Session) :
    Except Fault (Decision Landing) × Desk :=
  (iv.drawing g).perform ((iv.drawing g).forward id (some page)) s

/-- Whether the session that work led to is stored. -/
def isStored (store : Store) (result : Except Fault (Decision Landing) × Desk) : Bool :=
  match result with
  | (.error _, _) => false
  | (.ok decision, desk) => decision.commit && (store.save desk.session).isOk

namespace Rush

variable {Caller : Type}

/-- No call has begun. -/
def opening (σ : Store) : Rush Caller := ⟨σ, fun _ => .waiting, []⟩

/-- The rush after a call has come further. -/
def mark [DecidableEq Caller] (x : Rush Caller) (c : Caller) (call : Call) : Rush Caller :=
  { x with calls := fun d => if d = c then call else x.calls d }

/-- The rush after the next step of a caller, who asks to leave a page of the session with an id. -/
def act [DecidableEq Caller] (iv : Interview) (id page : Id) (g : Caller → Generator)
    (x : Rush Caller) (c : Caller) : Rush Caller :=
  match x.calls c with
  | .waiting =>
    match x.store.load id with
    | .error e => x.mark c (.done (.error e))
    | .ok s => x.mark c (.working (work iv id page (g c) s))
  | .working result =>
    let served := conclude x.store result
    { x.mark c (.done served.reply) with
      store := served.store
      stored := if isStored x.store result then x.stored ++ [c] else x.stored }
  | .done _ => x

/-- The rush after steps of callers in some order. -/
def run [DecidableEq Caller] (iv : Interview) (id page : Id) (g : Caller → Generator)
    (x : Rush Caller) (order : List Caller) : Rush Caller :=
  order.foldl (act iv id page g) x

/-! ## The state from which all calls start -/

/-- A stored session that is open and stands on a page that the callers name, such that leaving it
never leads to that page again. -/
structure Standing (iv : Interview) (σ : Store) (id page : Id) (s : Session)
    (g : Caller → Generator) : Prop where
  find : σ.find? id = some s
  placed : Placed σ Session.Counted id s
  fitted : iv.survey.BatteriesApart → s.Fitted iv.survey
  keys : ∀ b ∈ iv.survey.batteries, b.id.isCompound = false
  isOpen : s.isCompleted = false
  onPage : ∃ cur, s.currentPage = some cur ∧ page.equal cur = true
  leaves : ∀ c a d, work iv id page (g c) s = (.ok a, d) →
    σ.Takes d.session ∧ d.session.currentPage.any page.equal = false

/-- The step alone, taken by a caller. -/
def alone (iv : Interview) (σ : Store) (id page : Id) (g : Caller → Generator) (c : Caller) :
    Served Landing :=
  (iv.drawing (g c)).nextPage σ id (some page)

/-- A store after the session was moved, where calls that come late are told the position `l`. If no
two batteries share an id, no cursor was moved by more than one item. -/
structure Moved (iv : Interview) (id page : Id) (s : Session) (l : Landing) (after : Store)
    (t : Session) : Prop where
  find : after.find? id = some t
  refuses : ∀ u : Session, u.id = s.id → u.version = s.version →
    after.save u = .error (.staleSession s.id s.version)
  duplicate : isDuplicate t (some page) = true
  announced : iv.navigator.announce.Reads fun _ => .ok ()
  position : iv.positionIn t = .ok l
  onward : iv.survey.BatteriesApart → s.Onward iv.survey t

variable {iv : Interview} {σ : Store} {id page : Id} {s t : Session} {g : Caller → Generator}
  {x : Rush Caller} {c w : Caller} {l : Landing}

theorem Standing.alone_eq (h : Standing iv σ id page s g) (c : Caller) :
    alone iv σ id page g c = conclude σ (work iv id page (g c) s) := by
  unfold alone nextPage transact
  rw [Store.load_of_find? h.find]
  rfl

/-- A step that has a result is stored from the state of all, and moves the session. -/
theorem Standing.moved (h : Standing iv σ id page s g) {a : Decision Landing} {d : Desk}
    (hc : work iv id page (g c) s = (.ok a, d)) :
    (a.commit = true ∧ d.session.id = s.id ∧ d.session.version = s.version) ∧
      ∃ t after l, σ.save d.session = .ok (t, after) ∧ Moved iv id page s l after t := by
  obtain ⟨cur, hcur, hpage⟩ := h.onPage
  have hdup := isDuplicate_current hcur hpage
  obtain ⟨hcommit, ⟨hid, hversion⟩, hcounted, hkeyed, hann⟩ :=
    @forward_ok (iv.drawing (g c)) ⟨s, (iv.drawing (g c)).generatorFor s, []⟩ _ _ _ _ _ hcur
      h.isOpen hdup h.placed.property hc
  obtain ⟨htakes, hleft⟩ := h.leaves c a d hc
  obtain ⟨n, hn⟩ := h.placed.version
  have hsid : σ.find? s.id = some s := (Store.find?_of_samePlace h.placed.id).trans h.find
  obtain ⟨after, hsave, hform, hafter⟩ :=
    Store.save_of_version_eq (hid ▸ hsid) hn (hversion.trans hn) htakes
  have hfound : ∀ j, σ.samePlace j s.id = true →
      after.find? j = some (d.session.atVersion (n + 1)) := by
    intro j hj
    rw [hafter j, if_pos]
    exact (congrArg (σ.samePlace j) hid).trans hj
  obtain ⟨l, hl⟩ : ∃ l, iv.positionIn (d.session.atVersion (n + 1)) = .ok l :=
    exists_positionIn h.keys hcounted hkeyed
  refine ⟨⟨hcommit, hid, hversion⟩, _, after, l, hsave, ?_, ?_, ?_, hann, hl, fun hapart => ?_⟩
  · exact hfound id ((Store.samePlace_comm _ _ _).trans h.placed.id)
  · intro u hu hv
    rw [← hu, ← hv]
    refine Store.save_of_version_ne (hfound u.id (hu ▸ Store.samePlace_self σ _)) ?_
    rw [hv, hn, Session.atVersion_version, Value.equal_int]
    exact decide_eq_false (by omega)
  · exact congrArg not hleft
  · have honward := @forward_onward (iv.drawing (g c)) s hapart (h.fitted hapart) _ _ _ a d rfl hc
    exact ⟨honward.fitted.same rfl rfl, honward.plans⟩

theorem Moved.whereabouts (h : Moved iv id page s l σ t) (g : Generator) :
    (iv.drawing g).whereabouts t = .ok l :=
  (whereabouts_eq (h.announced default).1 t).trans h.position

/-- A call that loads the session after it was moved is told the position. -/
theorem Moved.late (h : Moved iv id page s l σ t) (g : Generator) :
    (work iv id page g t).1 = .ok ⟨l, false⟩ := by
  have hlate : (work iv id page g t).1 = ((iv.drawing g).whereabouts t).map (⟨·, false⟩) :=
    forward_duplicate h.duplicate
  rw [hlate, h.whereabouts]
  rfl

/-! ## The two phases -/

/-- How far a call has come while nothing is stored. -/
def Call.Early (iv : Interview) (σ : Store) (id page : Id) (s : Session) (g : Caller → Generator)
    (c : Caller) : Call → Prop
  | .waiting => True
  | .working result => result = work iv id page (g c) s
  | .done reply => ∃ e, reply = .error e ∧ (alone iv σ id page g c).reply = .error e

/-- What callers are told who did not move the session. -/
def Told (iv : Interview) (σ : Store) (id page : Id) (s : Session) (g : Caller → Generator)
    (l : Landing) (c : Caller) (reply : Except Fault Landing) : Prop :=
  reply = .ok l ∨ reply = .error (.staleSession s.id s.version) ∨
    ∃ e, reply = .error e ∧ (alone iv σ id page g c).reply = .error e

/-- How far a call has come that did not move the session, once it was moved. -/
def Call.Late (iv : Interview) (σ : Store) (id page : Id) (s : Session) (g : Caller → Generator)
    (l : Landing) (c : Caller) : Call → Prop
  | .waiting => True
  | .working result => result = work iv id page (g c) s ∨ result.1 = .ok ⟨l, false⟩
  | .done reply => Told iv σ id page s g l c reply

/-- Nothing is stored. -/
structure Open (iv : Interview) (σ : Store) (id page : Id) (s : Session) (g : Caller → Generator)
    (x : Rush Caller) : Prop where
  store : x.store = σ
  stored : x.stored = []
  calls : ∀ c, Call.Early iv σ id page s g c (x.calls c)

/-- The session was moved by the call of `w`. -/
structure Closed (iv : Interview) (σ : Store) (id page : Id) (s : Session) (g : Caller → Generator)
    (w : Caller) (l : Landing) (x : Rush Caller) : Prop where
  store : x.store = (alone iv σ id page g w).store
  stored : x.stored = [w]
  moved : ∃ t, Moved iv id page s l x.store t
  winner : x.calls w = .done (alone iv σ id page g w).reply
  others : ∀ c, c ≠ w → Call.Late iv σ id page s g l c (x.calls c)

theorem Call.Early.late {call : Call} (h : Call.Early iv σ id page s g c call) :
    Call.Late iv σ id page s g l c call := by
  cases call with
  | waiting => trivial
  | working result => exact .inl h
  | done reply => exact .inr (.inr h)

section Steps
variable [DecidableEq Caller]

theorem calls_mark (x : Rush Caller) (c d : Caller) (call : Call) :
    (x.mark c call).calls d = if d = c then call else x.calls d := rfl

/-- While nothing is stored, a step fails, or it gets no further than its result, or it moves the
session. -/
theorem Open.act (h : Open iv σ id page s g x) (hs : Standing iv σ id page s g) (c : Caller) :
    Open iv σ id page s g (x.act iv id page g c) ∨
      ∃ l, Closed iv σ id page s g c l (x.act iv id page g c) := by
  have hmark : ∀ {call : Call}, Call.Early iv σ id page s g c call →
      ∀ d, Call.Early iv σ id page s g d ((x.mark c call).calls d) := by
    intro call hcall d
    rw [calls_mark]
    split
    · next hd => exact hd ▸ hcall
    · exact h.calls d
  have hcall := h.calls c
  unfold Rush.act
  cases hc : x.calls c with
  | waiting =>
    dsimp only
    rw [h.store, Store.load_of_find? hs.find]
    exact .inl ⟨h.store, h.stored, hmark rfl⟩
  | done reply => exact .inl h
  | working result =>
    rw [hc] at hcall
    obtain rfl : result = work iv id page (g c) s := hcall
    dsimp only
    rw [h.store]
    have halone := hs.alone_eq c
    rcases hwork : work iv id page (g c) s with ⟨e | a, d⟩
    · refine .inl ⟨rfl, h.stored, hmark ⟨e, rfl, ?_⟩⟩
      rw [halone, hwork]
      rfl
    · obtain ⟨⟨hcommit, -, -⟩, t, after, l, hsave, hmoved⟩ := hs.moved hwork
      rw [hwork] at halone
      have hafter : (conclude σ (.ok a, d)).store = after := by
        simp [conclude, hcommit, hsave]
      refine .inr ⟨l, ?_⟩
      exact
        { store := congrArg Served.store halone.symm
          stored := by simp [h.stored, isStored, hcommit, hsave, Except.isOk, Except.toBool]
          moved := ⟨t, hafter ▸ hmoved⟩
          winner := by rw [calls_mark, if_pos rfl, halone]
          others := fun b hb => by
            rw [calls_mark, if_neg hb]
            exact (h.calls b).late }

/-- Once the session was moved, no step stores anything. -/
theorem Closed.act (h : Closed iv σ id page s g w l x) (hs : Standing iv σ id page s g)
    (c : Caller) : Closed iv σ id page s g w l (x.act iv id page g c) := by
  have hmark : ∀ (call : Call) {y : Rush Caller}, c ≠ w → Call.Late iv σ id page s g l c call →
      y.store = x.store → y.stored = x.stored → y.calls = (x.mark c call).calls →
        Closed iv σ id page s g w l y := by
    intro call y hcw hcall hstore hstored hcalls
    refine ⟨hstore.trans h.store, hstored.trans h.stored, hstore ▸ h.moved, ?_, fun d hd => ?_⟩
    · rw [hcalls, calls_mark, if_neg hcw.symm, h.winner]
    · rw [hcalls, calls_mark]
      split
      · next hdc => exact hdc ▸ hcall
      · exact h.others d hd
  obtain ⟨t, hmoved⟩ := h.moved
  unfold Rush.act
  cases hc : x.calls c with
  | done reply => exact h
  | waiting =>
    have hcw : c ≠ w := by
      rintro rfl
      cases hc.symm.trans h.winner
    dsimp only
    rw [Store.load_of_find? hmoved.find]
    exact hmark (.working _) hcw (.inr (hmoved.late (g c))) rfl rfl rfl
  | working result =>
    have hcw : c ≠ w := by
      rintro rfl
      cases hc.symm.trans h.winner
    have hcall := h.others c hcw
    rw [hc] at hcall
    -- Nothing is stored: the work failed, or its session is refused, or it was late.
    have hrest : Told iv σ id page s g l c (conclude x.store result).reply ∧
        (conclude x.store result).store = x.store ∧ isStored x.store result = false := by
      rcases hcall with rfl | hlate
      · rcases hwork : work iv id page (g c) s with ⟨e | a, d⟩
        · refine ⟨.inr (.inr ⟨e, rfl, ?_⟩), rfl, rfl⟩
          rw [hs.alone_eq, hwork]
          rfl
        · obtain ⟨⟨hcommit, hid, hversion⟩, -⟩ := hs.moved hwork
          have hrefused := hmoved.refuses d.session hid hversion
          refine ⟨.inr (.inl ?_), ?_, ?_⟩
          · simp [conclude, hcommit, hrefused]
          · simp [conclude, hcommit, hrefused]
          · simp [isStored, hrefused, Except.isOk, Except.toBool]
      · obtain ⟨a, d⟩ := result
        obtain rfl : a = .ok ⟨l, false⟩ := hlate
        exact ⟨.inl rfl, rfl, rfl⟩
    obtain ⟨htold, hstore, hstored⟩ := hrest
    exact hmark (.done _) hcw htold hstore (if_neg (by simp [hstored])) rfl

end Steps

end Rush

end Interview

end Questionnaire
