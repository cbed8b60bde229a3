import Questionnaire.Proofs.Interview.Framing
import Questionnaire.Proofs.Interview.Runs
import Questionnaire.Proofs.Store.Interchange

/-!
# Requests are all or nothing

Whatever sessions are stored and whatever is asked of one of them (`Interview.serve`), a request
that fails leaves the store as it is, and one that has a reply changes at most the session that it
addresses: it creates it at version zero, or stores it one version later
(`Interview.all_or_nothing`). A request to leave a page changes nothing if it comes late, once the
session has ended, or if there is nothing before the page; a request that only asks changes nothing
at all.

A request is served by one transaction, which ends in one of four ways (`transact_of_find?_none` to
`transact_of_commit`). All that is needed of the work for it is that it is done on a copy of the
session and does not touch its id and its version (`Steady`). That is so for stored sessions of all
kinds, also those that no request to the interview leads to.
-/

namespace Questionnaire

open Flow

/-- What a request leads to, with its reply seen in another way. -/
def Served.map {α β : Type} (f : α → β) (served : Served α) : Served β :=
  ⟨served.reply.map f, served.store, served.events⟩

/-- The store after calls that are made one after the other. -/
def Store.after (σ : Store) (calls : List Store.Call) : Store :=
  calls.foldl (fun τ c => (τ.call c).2) σ

namespace Interview

/-! ## Requests -/

/-- What can be asked of a session. -/
inductive Request
  | start (embedded : Register Value)
  | load
  | position
  | forward (fromPage : Option Id)
  | backward (fromPage : Option Id)
  | answer (questionId : Id) (value : Value)
  | render (page : Option Id)
  | progress (batteryId : Id)

/-- What a request is replied. -/
inductive Reply
  | session (s : Session)
  | landing (l : Landing)
  | outcome (o : Option JumpOutcome)
  | page (p : RenderedPage)
  | progress (p : Option Progress)

/-- Serves a request on the session with an id. -/
def serve (iv : Interview) (σ : Store) (id : Id) : Request → Served Reply
  | .start embedded => (iv.start σ id embedded).map .session
  | .load => ⟨(σ.load id).map .session, σ, []⟩
  | .position => (iv.currentPosition σ id).map .landing
  | .forward fromPage => (iv.nextPage σ id fromPage).map .landing
  | .backward fromPage => (iv.previousPage σ id fromPage).map .landing
  | .answer questionId value => (iv.submitAnswer σ id questionId value).map .outcome
  | .render page => (iv.renderPage σ id page).map .page
  | .progress batteryId => (iv.loopProgress σ id batteryId).map .progress

/-- Whether a request only asks. -/
def Request.isRead : Request → Bool
  | .load | .position | .progress _ => true
  | _ => false

/-- Whether a request to leave a page is ignored by a session: it names another page than the
current one, or the session is on no page any more. -/
def Request.isIgnoredBy (s : Session) : Request → Bool
  | .forward fromPage | .backward fromPage =>
    isDuplicate s fromPage || s.isCompleted || s.currentPage.isNone
  | _ => false

variable {iv : Interview} {σ : Store} {s t : Session} {id j : Id} {α : Type}
  {work : Flow (Decision α)} {a : Decision α} {d : Desk}

/-! ## Work is done on a copy -/

/-- Work that does not touch which session it is done on, and at which version. -/
def Steady (work : Flow α) : Prop :=
  ∀ id version, Keeps (fun s => s.id = id ∧ s.version = version) work

theorem steady_begin : Steady iv.begin := fun id version => (frameLaw id version).begin

theorem steady_locate : Steady iv.locate := fun _ _ => keeps_locate

theorem steady_forward (id : Id) (fromPage : Option Id) : Steady (iv.forward id fromPage) :=
  fun sessionId version => (frameLaw sessionId version).forward id fromPage

theorem steady_backward (fromPage : Option Id) : Steady (iv.backward fromPage) :=
  fun id version => (frameLaw id version).backward fromPage

theorem steady_record (id questionId : Id) (value : Value) :
    Steady (iv.record id questionId value) :=
  fun sessionId version => (frameLaw sessionId version).record id questionId value

theorem steady_render (id : Id) (page : Option Id) : Steady (iv.render id page) :=
  fun sessionId version => (frameLaw sessionId version).render id page

theorem steady_report (batteryId : Id) : Steady (iv.report batteryId) := fun _ _ =>
  keeps_report batteryId

theorem Steady.perform (h : Steady work) (hperform : iv.perform work s = (.ok a, d)) :
    d.session.id = s.id ∧ d.session.version = s.version :=
  h s.id s.version _ a d ⟨rfl, rfl⟩ hperform

/-! ## How a transaction ends -/

theorem transact_of_find?_none (h : σ.find? id = none) :
    iv.transact σ id work undisturbed =
      ⟨.error ((σ.idFault? id).getD (.sessionNotFound id)), σ, []⟩ := by
  simp [transact, Store.load, h]

theorem transact_of_fault {e : Fault} (hs : σ.find? id = some s)
    (hperform : iv.perform work s = (.error e, d)) :
    iv.transact σ id work undisturbed = ⟨.error e, σ, d.events⟩ := by
  simp [transact, Store.load_of_find? hs, hperform, conclude, undisturbed]

theorem transact_of_read (hs : σ.find? id = some s) (hperform : iv.perform work s = (.ok a, d))
    (hread : a.commit = false) :
    iv.transact σ id work undisturbed = ⟨.ok a.reply, σ, d.events⟩ := by
  simp [transact, Store.load_of_find? hs, hperform, conclude, undisturbed, hread]

/-- The copy on which work was done is stored in the place of the session, one version later. -/
theorem transact_of_commit (hσ : Everywhere (fun _ => True) σ) (hs : σ.find? id = some s)
    (hwork : Steady work) (hperform : iv.perform work s = (.ok a, d)) (hcommit : a.commit = true)
    (htakes : σ.Takes d.session) :
    ∃ (n : Nat) (after : Store), s.version = .int n ∧ σ.samePlace d.session.id id = true ∧
      σ.Stores (d.session.atVersion (n + 1)) after ∧
        iv.transact σ id work undisturbed = ⟨.ok a.reply, after, d.events⟩ := by
  obtain ⟨hplace, ⟨n, hn⟩, -⟩ := hσ id s hs
  obtain ⟨hid, hversion⟩ := hwork.perform hperform
  have hfind : σ.find? d.session.id = some s := by rw [hid, Store.find?_of_samePlace hplace, hs]
  obtain ⟨after, hsave, hstores⟩ :=
    Store.save_of_version_eq hfind hn (hversion.trans hn) htakes
  refine ⟨n, after, hn, by rw [hid, hplace], hstores, ?_⟩
  have hcurrent : σ.saveEvents d.session = [] := by
    simp [Store.saveEvents, hfind, hversion, hn, Value.equal_int]
  simp [transact, Store.load_of_find? hs, hperform, conclude, undisturbed, hcommit, hsave,
    hcurrent]

/-! ## What a request does to the store -/

section
variable {after : Store} {n : Nat} (hplace : σ.samePlace t.id id = true)
  (hstores : σ.Stores (t.atVersion n) after)
include hplace hstores

/-- A session that is stored in the place of an id is found under the id. -/
theorem find?_of_stores_self : after.find? id = some (t.atVersion n) := by
  rw [hstores.2, Session.atVersion_id, Store.samePlace_comm, hplace, if_pos rfl]

theorem find?_of_stores_elsewhere (hj : σ.samePlace j id = false) :
    after.find? j = σ.find? j := by
  rw [hstores.2, Session.atVersion_id, Store.samePlace_congr hplace, hj, if_neg Bool.false_ne_true]

end

/-- What a request on the session with an id may do to a store: it leaves the store as it is, or
it changes that session alone, and then it has a reply. A new session has version zero; else the
version is one higher. -/
inductive Effect (σ : Store) (id : Id) : Served α → Prop
  | none {reply : Except Fault α} {events : List Event} : Effect σ id ⟨reply, σ, events⟩
  | created {reply : α} {after : Store} {events : List Event} {t : Session} :
      σ.find? id = none → σ.samePlace t.id id = true → σ.Stores (t.atVersion 0) after →
      Effect σ id ⟨.ok reply, after, events⟩
  | changed {reply : α} {after : Store} {events : List Event} {s t : Session} {n : Nat} :
      σ.find? id = some s → s.version = .int n → σ.samePlace t.id id = true →
      σ.Stores (t.atVersion (n + 1)) after → Effect σ id ⟨.ok reply, after, events⟩

namespace Effect

variable {served : Served α}

theorem map {β : Type} (f : α → β) (h : Effect σ id served) : Effect σ id (served.map f) := by
  cases h with
  | none => exact .none
  | created hnone hplace hstores => exact .created hnone hplace hstores
  | changed hs hn hplace hstores => exact .changed hs hn hplace hstores

/-- What has no reply has no effect on the store. -/
theorem store_of_error {e : Fault} (h : Effect σ id served) (he : served.reply = .error e) :
    served.store = σ := by
  cases h with
  | none => rfl
  | created | changed => cases he

/-- Where there is no session, one is created or nothing is done. -/
theorem store_of_find?_none (h : Effect σ id served) (hnone : σ.find? id = Option.none) :
    served.store = σ ∨ ∃ t, served.store.find? id = some t ∧ t.version = .int 0 := by
  cases h with
  | none => exact .inl rfl
  | @created _ _ _ t _ hplace hstores =>
    exact .inr ⟨t.atVersion 0, find?_of_stores_self hplace hstores, rfl⟩
  | changed hs => rw [hnone] at hs; cases hs

/-- Where there is a session, it is stored one version later or nothing is done. -/
theorem store_of_find?_some (h : Effect σ id served) (hs : σ.find? id = some s) :
    served.store = σ ∨ ∃ t, ∃ n : Nat,
      served.store.find? id = some t ∧ s.version = .int n ∧ t.version = .int (n + 1) := by
  cases h with
  | none => exact .inl rfl
  | created hnone => rw [hs] at hnone; cases hnone
  | @changed _ _ _ u t n hu hn hplace hstores =>
    cases hs.symm.trans hu
    exact .inr ⟨t.atVersion (n + 1), n, find?_of_stores_self hplace hstores, hn, rfl⟩

/-- What is kept elsewhere is left alone. -/
theorem find?_elsewhere (h : Effect σ id served) (hj : σ.samePlace j id = false) :
    served.store.find? j = σ.find? j := by
  cases h with
  | none => rfl
  | created _ hplace hstores => exact find?_of_stores_elsewhere hplace hstores hj
  | changed _ _ hplace hstores => exact find?_of_stores_elsewhere hplace hstores hj

/-- Every session stays in its place. -/
theorem everywhere (h : Effect σ id served) (hσ : Everywhere (fun _ => True) σ) :
    Everywhere (fun _ => True) served.store := by
  cases h with
  | none => exact hσ
  | created _ _ hstores => exact hσ.stores hstores trivial
  | changed _ _ _ hstores => exact hσ.stores hstores trivial

theorem sameForm (h : Effect σ id served) : σ.SameForm served.store := by
  cases h with
  | none => exact .refl σ
  | created _ _ hstores => exact hstores.1
  | changed _ _ _ hstores => exact hstores.1

end Effect

theorem transact_effect (hσ : Everywhere (fun _ => True) σ) (hwork : Steady work)
    (htaken : iv.IsTaken σ id work) : Effect σ id (iv.transact σ id work undisturbed) := by
  cases hs : σ.find? id with
  | none =>
    rw [transact_of_find?_none hs]
    exact .none
  | some s =>
    rcases hperform : iv.perform work s with ⟨e | a, d⟩
    · rw [transact_of_fault hs hperform]
      exact .none
    cases hcommit : a.commit with
    | false =>
      rw [transact_of_read hs hperform hcommit]
      exact .none
    | true =>
      obtain ⟨n, after, hn, hplace, hstores, heq⟩ := transact_of_commit hσ hs hwork hperform
        hcommit (htaken s a d (Store.load_of_find? hs) hperform hcommit)
      rw [heq]
      exact .changed hs hn hplace hstores

theorem start_effect {embedded : Register Value}
    (htakes : ∀ u d, iv.perform iv.begin (.new id iv.survey.id embedded) = (.ok u, d) →
      σ.Takes d.session) : Effect σ id (iv.start σ id embedded) := by
  unfold start
  rcases hperform : iv.perform iv.begin (.new id iv.survey.id embedded) with ⟨e | u, d⟩
  · exact .none
  dsimp only
  have hid : d.session.id = id := (steady_begin id (.int 0) _ u d ⟨rfl, rfl⟩ hperform).1
  rcases Store.create_cases (htakes u d hperform) with ⟨e, herror⟩ | ⟨hnone, after, hok, hstores⟩
  · rw [herror]
    exact .none
  · rw [hok]
    exact .created (hid ▸ hnone) (by rw [hid, Store.samePlace_self]) hstores

/-- A request starts a session, or is refused at once, or is served by one transaction. -/
theorem serve_cases (iv : Interview) (id : Id) (r : Request) :
    (∃ embedded, r = .start embedded) ∨ (∃ e, ∀ σ, iv.serve σ id r = ⟨.error e, σ, []⟩) ∨
      ∃ (α : Type) (work : Flow (Decision α)) (f : α → Reply), Steady work ∧
        ∀ σ, iv.serve σ id r = (iv.transact σ id work undisturbed).map f := by
  cases r with
  | start embedded => exact .inl ⟨embedded, rfl⟩
  | load =>
    refine .inr <| .inr ⟨_, do pure ⟨← Flow.session, false⟩, .session, fun _ _ => ?_, fun σ => ?_⟩
    · exact .bind .session fun _ => .pure
    · unfold serve transact
      cases σ.load id <;> rfl
  | position => exact .inr <| .inr ⟨_, _, _, steady_locate, fun _ => rfl⟩
  | forward fromPage => exact .inr <| .inr ⟨_, _, _, steady_forward id fromPage, fun _ => rfl⟩
  | backward fromPage => exact .inr <| .inr ⟨_, _, _, steady_backward fromPage, fun _ => rfl⟩
  | answer questionId value =>
    cases hq : iv.survey.question? questionId with
    | none =>
      refine .inr <| .inl ⟨.unknownQuestion questionId, fun σ => ?_⟩
      simp [serve, submitAnswer, submitAnswerDuring, hq, Served.map, Except.map]
    | some q =>
      refine .inr <| .inr ⟨_, iv.record id questionId value, .outcome,
        steady_record id questionId value, fun σ => ?_⟩
      simp [serve, submitAnswer, submitAnswerDuring, hq]
  | render page => exact .inr <| .inr ⟨_, _, _, steady_render id page, fun _ => rfl⟩
  | progress batteryId => exact .inr <| .inr ⟨_, _, _, steady_report batteryId, fun _ => rfl⟩

/-- Where every session is found in its place, a request has one of these effects. -/
theorem serve_effect (hσ : Everywhere (fun _ => True) σ) (hmem : Store.emptyMemory.SameForm σ)
    (id : Id) (r : Request) : Effect σ id (iv.serve σ id r) := by
  rcases iv.serve_cases id r with ⟨embedded, rfl⟩ | ⟨e, he⟩ | ⟨α, work, f, hwork, heq⟩
  · exact (start_effect fun _ d _ => Store.takes_of_memory hmem d.session).map _
  · rw [he]
    exact .none
  · rw [heq]
    exact (transact_effect hσ hwork fun _ _ d _ _ _ => Store.takes_of_memory hmem d.session).map f

/-- Where no session is found, only a request to start one stores any. -/
theorem serve_store_of_find?_none (hnone : σ.find? id = none) (r : Request) :
    (∃ embedded, r = .start embedded) ∨ (iv.serve σ id r).store = σ := by
  rcases iv.serve_cases id r with hstart | ⟨e, he⟩ | ⟨α, work, f, -, heq⟩
  · exact .inl hstart
  · rw [he]
    exact .inr rfl
  · rw [heq, transact_of_find?_none hnone]
    exact .inr rfl

/-- A request whose work is not to be stored leaves the store as it is. -/
theorem transact_store_of_read (h : ∀ s, σ.find? id = some s →
    Ensures (· = s) work fun a _ => a.commit = false) :
    (iv.transact σ id work undisturbed).store = σ := by
  rcases transact_cases iv σ id work with ⟨-, hsame⟩ | ⟨-, s, a, d, _, hload, hperform, hcommit, -⟩
  · exact hsame
  · have hread : a.commit = false := h s (Store.find?_of_load hload) _ a d rfl hperform
    rw [hcommit] at hread
    cases hread

/-! ## Requests that change nothing -/

variable {P : Session → Prop}

theorem locate_reads : Ensures P iv.locate fun a _ => a.commit = false :=
  .bind keeps_position fun _ => .pure fun _ _ => rfl

theorem report_reads (batteryId : Id) :
    Ensures P (iv.report batteryId) fun a _ => a.commit = false :=
  .bind Navigator.keeps_announce fun _ =>
    .bind (Navigator.preserves_progress batteryId).keeps fun _ => .pure fun _ _ => rfl

/-- Where a request to leave a page is ignored, the position is told. -/
theorem onCurrentPage_reads {work : Id → Flow (Decision Landing)} {fromPage : Option Id}
    (h : (isDuplicate s fromPage || s.isCompleted || s.currentPage.isNone) = true) :
    Ensures (· = s) (iv.onCurrentPage fromPage work) fun a _ => a.commit = false := by
  refine .bind .session fun t => .given (fun _ ht => ht.2.trans ht.1) ?_
  rintro rfl
  refine .ite (fun _ => ?_) fun hdup => ?_
  · exact .bind (keeps_warnOfDuplicate t fromPage) fun _ => locate_reads
  split
  · next hopen hpage => simp [hdup, hopen, hpage] at h
  · exact locate_reads

/-- Where there is nothing before a page, the way back leads nowhere and is not stored. -/
theorem backward_reads (fromPage : Option Id) :
    Ensures P (iv.backward fromPage) fun a _ => a.reply.pageId = none → a.commit = false := by
  rw [backward_eq]
  have hlocate : Ensures P iv.locate fun a _ => a.reply.pageId = none → a.commit = false :=
    locate_reads.mono (fun _ hs => hs) fun _ _ h _ => h
  refine onCurrentPage_ensures hlocate (fun page => ?_) fromPage
  refine .bind Navigator.keeps_announce fun _ => ?_
  refine .bind (Q := fun _ _ => True) (fun _ _ _ _ _ => trivial) fun landing => ?_
  split
  · exact .pure fun _ _ _ => rfl
  · next p hp =>
    refine .bind (.update (Q := fun _ _ => True) fun _ _ => trivial) fun _ => .pure fun _ _ h => ?_
    rw [hp] at h
    cases h

/-! ## All or nothing -/

/-- What it means that a request on the session with an id is all or nothing. A store that is as it
was has every session as it was. -/
structure AllOrNothing (iv : Interview) (σ : Store) (id : Id) (r : Request) : Prop where
  /-- A request that fails changes nothing. -/
  refused : ∀ e, (iv.serve σ id r).reply = .error e → (iv.serve σ id r).store = σ
  /-- No other session is changed. -/
  others : ∀ j, σ.samePlace j id = false → (iv.serve σ id r).store.find? j = σ.find? j
  /-- The session is as it was, or it is new, or it is one version later. -/
  own : (iv.serve σ id r).store = σ ∨
    (∃ embedded, r = .start embedded) ∧ σ.find? id = none ∧
      (∃ t, (iv.serve σ id r).store.find? id = some t ∧ t.version = .int 0) ∨
    ∃ s t, ∃ n : Nat, σ.find? id = some s ∧ (iv.serve σ id r).store.find? id = some t ∧
      s.version = .int n ∧ t.version = .int (n + 1)
  /-- A request that only asks changes nothing. -/
  reads : r.isRead = true → (iv.serve σ id r).store = σ
  /-- A request that is ignored changes nothing. -/
  ignored : ∀ s, σ.find? id = some s → r.isIgnoredBy s = true → (iv.serve σ id r).store = σ
  /-- A request to go back that leads nowhere changes nothing. -/
  nowhere : ∀ fromPage l, r = .backward fromPage →
    (iv.serve σ id r).reply = .ok (.landing l) → l.pageId = none → (iv.serve σ id r).store = σ

/-- Requests are all or nothing where every session is found in its place. -/
theorem allOrNothing_of_everywhere (hσ : Everywhere (fun _ => True) σ)
    (hmem : Store.emptyMemory.SameForm σ) (id : Id) (r : Request) : AllOrNothing iv σ id r := by
  have heffect : Effect σ id (iv.serve σ id r) := serve_effect hσ hmem id r
  refine ⟨fun e => heffect.store_of_error, fun j => heffect.find?_elsewhere, ?_, fun hr => ?_,
    fun s hs hr => ?_, ?_⟩
  · cases hs : σ.find? id with
    | none =>
      rcases iv.serve_store_of_find?_none hs r with hstart | hsame
      · exact (heffect.store_of_find?_none hs).imp_right fun hnew => .inl ⟨hstart, rfl, hnew⟩
      · exact .inl hsame
    | some s =>
      refine (heffect.store_of_find?_some hs).imp_right fun ⟨t, n, ht, hn, hnext⟩ => ?_
      exact .inr ⟨s, t, n, rfl, ht, hn, hnext⟩
  · cases r with
    | load => rfl
    | position =>
      show (iv.transact σ id iv.locate undisturbed).store = σ
      exact transact_store_of_read fun _ _ => locate_reads
    | progress batteryId =>
      show (iv.transact σ id (iv.report batteryId) undisturbed).store = σ
      exact transact_store_of_read fun _ _ => report_reads batteryId
    | _ => cases hr
  · have hread : ∀ (work : Flow (Decision Landing)),
        (Ensures (· = s) work fun a _ => a.commit = false) →
          (iv.transact σ id work undisturbed).store = σ := fun work hwork =>
      transact_store_of_read fun t ht => by rwa [Option.some.inj (ht.symm.trans hs)]
    cases r with
    | forward fromPage => exact hread (iv.forward id fromPage) (onCurrentPage_reads hr)
    | backward fromPage => exact hread (iv.backward fromPage) (onCurrentPage_reads hr)
    | _ => cases hr
  · rintro fromPage l rfl hreply hl
    have hreply : (iv.transact σ id (iv.backward fromPage) undisturbed).reply = .ok l := by
      simp only [serve, Served.map, previousPage] at hreply
      cases hback : (iv.transact σ id (iv.backward fromPage) undisturbed).reply with
      | error e => rw [hback] at hreply; cases hreply
      | ok l' => rw [hback] at hreply; cases hreply; rfl
    obtain ⟨s, a, d, -, hperform, rfl, -, hstore⟩ := transact_ok hreply
    exact hstore (backward_reads (P := (· = s)) fromPage _ a d rfl hperform hl)

/-! ## Stores of all contents -/

/-- One call leaves every session in its place, and keeps the form of the store. -/
theorem everywhere_call (hσ : Everywhere (fun _ => True) σ) (hmem : Store.emptyMemory.SameForm σ)
    (c : Store.Call) : Everywhere (fun _ => True) (σ.call c).2 ∧ σ.SameForm (σ.call c).2 := by
  have hstores : ∀ {s : Session} {n : Nat} {after : Store}, σ.Stores (s.atVersion n) after →
      Everywhere (fun _ => True) after ∧ σ.SameForm after := fun h => ⟨hσ.stores h trivial, h.1⟩
  have hsame : Everywhere (fun _ => True) σ ∧ σ.SameForm σ := ⟨hσ, .refl σ⟩
  cases c with
  | load | existence => exact hsame
  | create s =>
    simp only [Store.call]
    rcases Store.create_cases (Store.takes_of_memory hmem s) with ⟨e, he⟩ | ⟨-, after, hok, h⟩
    · rw [he]
      exact hsame
    · rw [hok]
      exact hstores h
  | save s =>
    simp only [Store.call]
    rcases hsave : σ.save s with e | ⟨t, after⟩
    · exact hsame
    · obtain ⟨n, rfl, h⟩ := Store.stores_of_save (Store.takes_of_memory hmem s)
        (fun t ht => (hσ _ t ht).version) hsave
      exact hstores h

/-- A store that keeps sessions as they are has every session in its place, whatever it was asked
to create, load and save. -/
theorem everywhere_after (calls : List Store.Call) :
    Everywhere (fun _ => True) (Store.emptyMemory.after calls) ∧
      Store.emptyMemory.SameForm (Store.emptyMemory.after calls) := by
  refine List.foldlRecOn (motive := fun σ => Everywhere (fun _ => True) σ ∧
    Store.emptyMemory.SameForm σ) calls _ ⟨.of_empty Store.find?_emptyMemory, trivial⟩ ?_
  intro σ hσ c _
  obtain ⟨hplaced, hform⟩ := everywhere_call hσ.1 hσ.2 c
  exact ⟨hplaced, hσ.2.trans hform⟩

/-- Every request is all or nothing, whatever sessions a store that keeps them as they are was asked
to keep. -/
theorem all_or_nothing (iv : Interview) (calls : List Store.Call) (id : Id) (r : Request) :
    AllOrNothing iv (Store.emptyMemory.after calls) id r :=
  have h := everywhere_after calls
  allOrNothing_of_everywhere h.1 h.2 id r

end Interview

end Questionnaire
