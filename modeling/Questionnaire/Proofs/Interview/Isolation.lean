import Questionnaire.Proofs.Interview.Requests
import Questionnaire.Sample.Walkthrough

/-!
# Sessions are isolated

With a seed, what happens to a session depends on its own requests alone. However the requests on
any number of sessions come in, one after the other, on a store that keeps sessions as they are:
the session's own requests are replied, logged and stored as if no other had come
(`Interview.isolated`).

Two stores are compared that find the same under one id (`SameUnder`). A request on that id leads to
the same reply in both and keeps them so (`SameUnder.serve`), since a transaction reads the store
under that id only and draws from a generator made of the seed and the session. A request on another
id changes neither what is found (`SameUnder.elsewhere`). The run is by induction on the requests.
-/

namespace Questionnaire

open Flow

namespace Interview

variable {iv : Interview} {σ τ : Store} {id j : Id} {s : Session}

/-! ## Requests that come in one after the other -/

/-- A request on the session with an id, and the generator from which it draws unless there is a
seed. -/
structure Message where
  id : Id
  request : Request
  generator : Generator

/-- What a message asks, and of which session. -/
def Message.asks (m : Message) : Id × Request := (m.id, m.request)

/-- What is seen of a message that was served: the reply, the log and the stored session. -/
structure Trace where
  id : Id
  reply : Except Fault Reply
  events : List Event
  stored : Option Session

/-- What a message leads to. -/
def handle (iv : Interview) (σ : Store) (m : Message) : Served Reply :=
  (iv.drawing m.generator).serve σ m.id m.request

/-- The store after messages that are served one after the other. -/
def storeAfter (iv : Interview) : Store → List Message → Store
  | σ, [] => σ
  | σ, m :: r => iv.storeAfter (iv.handle σ m).store r

/-- What is seen of messages that are served one after the other. -/
def traces (iv : Interview) : Store → List Message → List Trace
  | _, [] => []
  | σ, m :: r =>
    let served := iv.handle σ m
    ⟨m.id, served.reply, served.events, served.store.find? m.id⟩ :: iv.traces served.store r

/-! ## A seed leaves nothing to chance -/

theorem generatorFor_drawing {seed : Int} (hseed : iv.settings.randomSeed = some seed)
    (g : Generator) (s : Session) : (iv.drawing g).generatorFor s = iv.generatorFor s := by
  simp only [generatorFor, drawing, hseed]

theorem firstOutcome_drawing (g : Generator) :
    ∀ questions, (iv.drawing g).firstOutcome questions = iv.firstOutcome questions
  | [] => rfl
  | q :: r => by
    unfold firstOutcome
    rw [firstOutcome_drawing g r]
    rfl

theorem forward_drawing (g : Generator) (id : Id) (fromPage : Option Id) :
    (iv.drawing g).forward id fromPage = iv.forward id fromPage := by
  have hjump : ∀ page, (iv.drawing g).jumpOnLeaving page = iv.jumpOnLeaving page := fun page => by
    unfold jumpOnLeaving
    simp only [firstOutcome_drawing]
    rfl
  have hleave : ∀ page, (iv.drawing g).leave id page = iv.leave id page := fun page => by
    unfold leave
    rw [hjump]
    rfl
  unfold forward
  simp only [hleave]
  rfl

/-- With a seed it does not matter from which generator a request would draw without one. -/
theorem serve_drawing {seed : Int} (hseed : iv.settings.randomSeed = some seed) (g : Generator)
    (σ : Store) (id : Id) (r : Request) : (iv.drawing g).serve σ id r = iv.serve σ id r := by
  have hperform : ∀ {α : Type} (work : Flow α) (s : Session),
      (iv.drawing g).perform work s = iv.perform work s := fun work s => by
    unfold perform
    rw [generatorFor_drawing hseed]
  have htransact : ∀ {α : Type} (work : Flow (Decision α)),
      (iv.drawing g).transact σ id work undisturbed = iv.transact σ id work undisturbed :=
    fun work => by
      unfold transact
      simp only [hperform]
  cases r with
  | start embedded =>
    have hstart : (iv.drawing g).start σ id embedded = iv.start σ id embedded := by
      unfold start
      rw [hperform]
      rfl
    exact congrArg (Served.map Reply.session) hstart
  | load => rfl
  | position => exact congrArg (Served.map Reply.landing) (htransact iv.locate)
  | forward fromPage =>
    refine congrArg (Served.map Reply.landing) (Eq.trans ?_ (htransact (iv.forward id fromPage)))
    rw [← forward_drawing g]
    rfl
  | backward fromPage =>
    exact congrArg (Served.map Reply.landing) (htransact (iv.backward fromPage))
  | answer questionId value =>
    have hanswer : (iv.drawing g).submitAnswer σ id questionId value =
        iv.submitAnswer σ id questionId value := by
      unfold submitAnswer submitAnswerDuring
      simp only [← htransact]
      rfl
    exact congrArg (Served.map Reply.outcome) hanswer
  | render page => exact congrArg (Served.map Reply.page) (htransact (iv.render id page))
  | progress batteryId =>
    exact congrArg (Served.map Reply.progress) (htransact (iv.report batteryId))

/-! ## Stores that find the same under an id -/

/-- Two stores that keep sessions as they are, each in its place, and find the same under an id. -/
structure SameUnder (id : Id) (σ τ : Store) : Prop where
  left : Everywhere (fun _ => True) σ
  right : Everywhere (fun _ => True) τ
  leftInMemory : Store.emptyMemory.SameForm σ
  rightInMemory : Store.emptyMemory.SameForm τ
  find? : σ.find? id = τ.find? id

/-- Two results of a request on the session with an id that nobody can tell apart by it. -/
structure SameServed {α : Type} (id : Id) (a b : Served α) : Prop where
  reply : a.reply = b.reply
  events : a.events = b.events
  find? : a.store.find? id = b.store.find? id

theorem SameServed.map {α β : Type} {a b : Served α} (h : SameServed id a b) (f : α → β) :
    SameServed id (a.map f) (b.map f) where
  reply := congrArg (Except.map f) h.reply
  events := h.events
  find? := h.find?

theorem idFault?_of_memory (h : Store.emptyMemory.SameForm σ) (id : Id) :
    σ.idFault? id = Store.emptyMemory.idFault? id := by
  cases σ with
  | memory _ => rfl
  | files _ => exact h.elim

/-- A store that keeps sessions as they are tells by what it finds whether there is a session. -/
theorem existence_of_memory (h : Store.emptyMemory.SameForm σ) (id : Id) :
    σ.existence id = match Store.emptyMemory.idFault? id with
      | none | some .nulInName => .ok (σ.find? id).isSome
      | some e => .error e := by
  cases σ with
  | memory _ => rfl
  | files _ => exact h.elim

theorem create_of_existence {e : Fault} (h : σ.existence s.id = .error e) :
    σ.create s = .error e := by
  simp [Store.create, h, bind, Except.bind]

namespace SameUnder

variable (h : SameUnder id σ τ)
include h

theorem existence : σ.existence id = τ.existence id := by
  rw [existence_of_memory h.leftInMemory, existence_of_memory h.rightInMemory, h.find?]

/-- A session is created in both or in none. -/
theorem create (hid : s.id = id) :
    (∃ e, σ.create s = .error e ∧ τ.create s = .error e) ∨
      ∃ after after', (σ.create s = .ok (s.atVersion 0, after) ∧ σ.Stores (s.atVersion 0) after) ∧
        τ.create s = .ok (s.atVersion 0, after') ∧ τ.Stores (s.atVersion 0) after' := by
  subst hid
  have hcreated : ∀ {υ : Store}, Store.emptyMemory.SameForm υ → υ.existence s.id = .ok false →
      ∃ after, υ.create s = .ok (s.atVersion 0, after) ∧ υ.Stores (s.atVersion 0) after := by
    intro υ hυ hex
    rcases Store.create_cases (Store.takes_of_memory hυ s) with ⟨e, he⟩ | ⟨-, hok⟩
    · cases υ with
      | memory _ => simp [Store.create, hex, bind, Except.bind, Store.write, Except.map] at he
      | files _ => exact hυ.elim
    · exact hok
  have hboth := h.existence
  cases hex : σ.existence s.id with
  | error e => exact .inl ⟨e, create_of_existence hex, create_of_existence (hboth ▸ hex)⟩
  | ok known =>
    cases known with
    | true =>
      refine .inl ⟨.sessionExists s.id, ?_, ?_⟩
      · simp [Store.create, hex, bind, Except.bind]
      · simp [Store.create, hboth ▸ hex, bind, Except.bind]
    | false =>
      obtain ⟨after, hafter⟩ := hcreated h.leftInMemory hex
      obtain ⟨after', hafter'⟩ := hcreated h.rightInMemory (hboth ▸ hex)
      exact .inr ⟨after, after', hafter, hafter'⟩

theorem start (embedded : Register Value) :
    SameServed id (iv.start σ id embedded) (iv.start τ id embedded) := by
  unfold Interview.start
  rcases hperform : iv.perform iv.begin (.new id iv.survey.id embedded) with ⟨e | u, d⟩
  · exact ⟨rfl, rfl, h.find?⟩
  dsimp only
  have hid : d.session.id = id := (steady_begin id (.int 0) _ u d ⟨rfl, rfl⟩ hperform).1
  rcases h.create hid with ⟨e, hσ, hτ⟩ | ⟨after, after', ⟨hσ, hafter⟩, hτ, hafter'⟩
  · rw [hσ, hτ]
    exact ⟨rfl, rfl, h.find?⟩
  · rw [hσ, hτ]
    refine ⟨rfl, rfl, ?_⟩
    dsimp only
    rw [find?_of_stores_self (hid ▸ Store.samePlace_self σ id) hafter,
      find?_of_stores_self (hid ▸ Store.samePlace_self τ id) hafter']

theorem transact {α : Type} {work : Flow (Decision α)} (hwork : Steady work) :
    SameServed id (iv.transact σ id work undisturbed) (iv.transact τ id work undisturbed) := by
  cases hσ : σ.find? id with
  | none =>
    have hτ : τ.find? id = none := h.find?.symm.trans hσ
    rw [transact_of_find?_none hσ, transact_of_find?_none hτ, idFault?_of_memory h.leftInMemory,
      idFault?_of_memory h.rightInMemory]
    exact ⟨rfl, rfl, h.find?⟩
  | some s =>
    have hτ : τ.find? id = some s := h.find?.symm.trans hσ
    rcases hperform : iv.perform work s with ⟨e | a, d⟩
    · rw [transact_of_fault hσ hperform, transact_of_fault hτ hperform]
      exact ⟨rfl, rfl, h.find?⟩
    cases hcommit : a.commit with
    | false =>
      rw [transact_of_read hσ hperform hcommit, transact_of_read hτ hperform hcommit]
      exact ⟨rfl, rfl, h.find?⟩
    | true =>
      obtain ⟨n, after, hn, hplace, hstores, heq⟩ := transact_of_commit h.left hσ hwork hperform
        hcommit (Store.takes_of_memory h.leftInMemory _)
      obtain ⟨m, after', hm, hplace', hstores', heq'⟩ := transact_of_commit h.right hτ hwork
        hperform hcommit (Store.takes_of_memory h.rightInMemory _)
      obtain rfl : n = m := Int.ofNat.inj (Value.int.inj (hn.symm.trans hm))
      rw [heq, heq']
      refine ⟨rfl, rfl, ?_⟩
      dsimp only
      rw [find?_of_stores_self hplace hstores, find?_of_stores_self hplace' hstores']

/-- A request under the id leads to the same in both stores. -/
theorem sameServed (r : Request) : SameServed id (iv.serve σ id r) (iv.serve τ id r) := by
  rcases iv.serve_cases id r with ⟨embedded, rfl⟩ | ⟨e, he⟩ | ⟨α, work, f, hwork, heq⟩
  · exact (h.start embedded).map _
  · rw [he, he]
    exact ⟨rfl, rfl, h.find?⟩
  · rw [heq, heq]
    exact (h.transact hwork).map f

/-- A request under the id leads to stores that find the same under it. -/
theorem serve (r : Request) : SameUnder id (iv.serve σ id r).store (iv.serve τ id r).store := by
  have hleft : Effect σ id (iv.serve σ id r) := serve_effect h.left h.leftInMemory id r
  have hright : Effect τ id (iv.serve τ id r) := serve_effect h.right h.rightInMemory id r
  exact ⟨hleft.everywhere h.left, hright.everywhere h.right, h.leftInMemory.trans hleft.sameForm,
    h.rightInMemory.trans hright.sameForm, (h.sameServed r).find?⟩

/-- A request under another id is not noticed under this one. -/
theorem elsewhere (hj : id.agrees j = false) (r : Request) :
    SameUnder id (iv.serve σ j r).store τ := by
  have hleft : Effect σ j (iv.serve σ j r) := serve_effect h.left h.leftInMemory j r
  refine ⟨hleft.everywhere h.left, h.right, h.leftInMemory.trans hleft.sameForm, h.rightInMemory,
    (hleft.find?_elsewhere ?_).trans h.find?⟩
  rw [← h.leftInMemory.samePlace]
  exact hj

/-- Ids that agree are one id. -/
theorem congr (hj : id.agrees j = true) : SameUnder j σ τ := by
  have hplace : ∀ {υ : Store}, Store.emptyMemory.SameForm υ → υ.find? id = υ.find? j :=
    fun {υ} hυ => Store.find?_of_samePlace ((hυ.samePlace id j).symm.trans hj)
  refine ⟨h.left, h.right, h.leftInMemory, h.rightInMemory, ?_⟩
  rw [← hplace h.leftInMemory, ← hplace h.rightInMemory, h.find?]

end SameUnder

theorem sameUnder_empty (id : Id) : SameUnder id .emptyMemory .emptyMemory where
  left := .of_empty Store.find?_emptyMemory
  right := .of_empty Store.find?_emptyMemory
  leftInMemory := trivial
  rightInMemory := trivial
  find? := rfl

/-! ## Runs -/

/-- From stores that find the same under an id, the messages to it have the same traces among others
and alone. -/
theorem isolated_of_sameUnder {seed : Int} (hseed : iv.settings.randomSeed = some seed) :
    ∀ {messages own : List Message} {σ τ : Store}, SameUnder id σ τ →
      own.map Message.asks = (messages.filter fun m => id.agrees m.id).map Message.asks →
      iv.traces τ own = (iv.traces σ messages).filter (fun t => id.agrees t.id) ∧
        (iv.storeAfter τ own).find? id = (iv.storeAfter σ messages).find? id
  | [], own, σ, τ, h, hown => by
    obtain rfl : own = [] := List.map_eq_nil_iff.1 hown
    exact ⟨rfl, h.find?.symm⟩
  | m :: r, own, σ, τ, h, hown => by
    have hm : iv.handle σ m = iv.serve σ m.id m.request := serve_drawing hseed _ _ _ _
    cases hid : id.agrees m.id with
    | false =>
      -- The message is to another session, which is not noticed.
      rw [List.filter_cons_of_neg (by simp [hid])] at hown
      have hthere : SameUnder id (iv.serve σ m.id m.request).store τ := h.elsewhere hid m.request
      have hrest := isolated_of_sameUnder hseed hthere hown
      rw [traces, storeAfter, hm, List.filter_cons_of_neg (by simp [hid])]
      exact hrest
    | true =>
      rw [List.filter_cons_of_pos (by simp [hid]), List.map_cons] at hown
      obtain ⟨m', own, rfl, hm', hown⟩ := List.map_eq_cons_iff.1 hown
      obtain ⟨hsame, hrequest⟩ := Prod.mk.inj hm'
      have hm'' : iv.handle τ m' = iv.serve τ m.id m.request := by
        rw [handle, serve_drawing hseed, hsame, hrequest]
      have hhere := h.congr hid
      have hserved : SameServed m.id (iv.serve σ m.id m.request) (iv.serve τ m.id m.request) :=
        hhere.sameServed m.request
      have hback : m.id.agrees id = true := (Value.agrees_comm _ _).trans hid
      have hthere : SameUnder id (iv.serve σ m.id m.request).store
          (iv.serve τ m.id m.request).store := (hhere.serve m.request).congr hback
      have hrest := isolated_of_sameUnder hseed hthere hown
      rw [traces, traces, storeAfter, storeAfter, hm, hm'',
        List.filter_cons_of_pos (by simp [hid]), hsame]
      exact ⟨congrArg₂ _ (by rw [hserved.reply, hserved.events, hserved.find?]) hrest.1, hrest.2⟩

/-- With a seed, the messages to a session have the same traces among any others as when they come
in alone on an empty store, and the session is stored the same. -/
theorem isolated {seed : Int} (hseed : iv.settings.randomSeed = some seed) (id : Id)
    {messages own : List Message}
    (hown : own.map Message.asks = (messages.filter fun m => id.agrees m.id).map Message.asks) :
    iv.traces .emptyMemory own =
        (iv.traces .emptyMemory messages).filter (fun t => id.agrees t.id) ∧
      (iv.storeAfter .emptyMemory own).find? id =
        (iv.storeAfter .emptyMemory messages).find? id :=
  isolated_of_sameUnder hseed (sameUnder_empty id) hown

end Interview

/-! ## Two respondents who take turns -/

namespace Sample.Walkthrough

/-- The requests of a respondent, who draws from a generator unless there is a seed. -/
def visitOf (id : Id) (g : Generator) : List Interview.Message :=
  [⟨id, .start ∅, g⟩, ⟨id, .answer (.text "q_aware") (.list [.text "puma"]), g⟩,
    ⟨id, .render none, g⟩, ⟨id, .forward none, g⟩]

/-- The visits of two respondents whose requests alternate. -/
def visits : List Interview.Message :=
  ((visitOf sessionId (.ofScript [0])).zip (visitOf (.text "other") (.ofScript [1]))).flatMap
    fun m => [m.1, m.2]

end Sample.Walkthrough

open Sample.Walkthrough in
/-- Of two respondents whose requests alternate, each is served as if the other were not there. -/
theorem Interview.isolated_visits :
    (interview.settings.randomSeed = some 42 ∧ visits.length = 8) ∧
      interview.traces .emptyMemory (visitOf sessionId (.ofScript [7])) =
        (interview.traces .emptyMemory visits).filter (fun t => sessionId.agrees t.id) ∧
      (interview.storeAfter .emptyMemory (visitOf sessionId (.ofScript [7]))).find? sessionId =
        (interview.storeAfter .emptyMemory visits).find? sessionId :=
  ⟨⟨rfl, rfl⟩, Interview.isolated rfl sessionId rfl⟩

end Questionnaire
