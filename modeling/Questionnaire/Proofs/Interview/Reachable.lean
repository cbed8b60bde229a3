import Questionnaire.Interview
import Questionnaire.Proofs.Flow
import Questionnaire.Proofs.Route.Selections
import Questionnaire.Proofs.Store.Slots

/-!
# Sessions that requests lead to

A store is reachable if requests to an interview lead to it, one after the other, from an empty
store (`Interview.Reachable`). Every request may draw from a generator of its own. What a request
leaves behind must be a session that the store takes: a store that keeps sessions as they are takes
every one, and a store of records those that read back as they were written.

`Reachable.invariant` is the induction over the requests: a property that a new session has once it
is placed on its first page, and that the work of every request keeps, all stored sessions have.
-/

namespace Questionnaire

open Flow

namespace Interview

variable {iv : Interview} {σ : Store} {s : Session} {id : Id}

/-- The interview as it serves one request, with the generator that the request draws from unless
there is a seed. -/
def drawing (iv : Interview) (g : Generator) : Interview := { iv with unseeded := g }

/-- The work of the requests on a session with an id. Answers are texts or lists of texts. -/
inductive Offers (iv : Interview) (id : Id) : {α : Type} → Flow (Decision α) → Prop
  /-- The work of `Interview.currentPosition`. -/
  | locate : iv.Offers id iv.locate
  /-- The work of `Interview.nextPage`. -/
  | forward (fromPage : Option Id) : iv.Offers id (iv.forward id fromPage)
  /-- The work of `Interview.previousPage`. -/
  | backward (fromPage : Option Id) : iv.Offers id (iv.backward fromPage)
  /-- The work of `Interview.submitAnswer`. -/
  | record {q : Question} {questionId : Id} {answer : Value} :
      iv.survey.question? questionId = some q → answer.isAnswer = true →
      iv.Offers id (iv.record id questionId answer)
  /-- The work of `Interview.renderPage`. -/
  | render (page : Option Id) : iv.Offers id (iv.render id page)
  /-- The work of `Interview.loopProgress`. -/
  | report (batteryId : Id) : iv.Offers id (iv.report batteryId)

/-- The stores that requests to an interview lead to. -/
inductive Reachable (iv : Interview) : Store → Prop
  | emptyMemory : iv.Reachable .emptyMemory
  | emptyFiles : iv.Reachable .emptyFiles
  | start {σ : Store} (g : Generator) (id : Id) (embedded : Register Value) : iv.Reachable σ →
      (∀ u d, (iv.drawing g).perform (iv.drawing g).begin (.new id iv.survey.id embedded) =
        (.ok u, d) → σ.Takes d.session) →
      iv.Reachable ((iv.drawing g).start σ id embedded).store
  | serve {σ : Store} (g : Generator) {id : Id} {α : Type} {work : Flow (Decision α)} :
      iv.Reachable σ → (iv.drawing g).Offers id work →
      (∀ s a d, σ.load id = .ok s → (iv.drawing g).perform work s = (.ok a, d) → a.commit = true →
        σ.Takes d.session) →
      iv.Reachable ((iv.drawing g).transact σ id work undisturbed).store

/-! ## What requests do to a store -/

/-- A request to start a session leaves the store as it is or creates the session. -/
theorem start_cases (iv : Interview) (σ : Store) (id : Id) (embedded : Register Value) :
    (iv.start σ id embedded).store = σ ∨
      ∃ u d s, iv.perform iv.begin (.new id iv.survey.id embedded) = (.ok u, d) ∧
        σ.create d.session = .ok (s, (iv.start σ id embedded).store) := by
  unfold start
  rcases hwork : iv.perform iv.begin (.new id iv.survey.id embedded) with ⟨e | u, d⟩
  · exact .inl rfl
  · dsimp only
    rcases hcreate : σ.create d.session with e | ⟨s, after⟩
    · exact .inl rfl
    · exact .inr ⟨u, d, s, rfl, hcreate⟩

/-- Whether a request on a session is committed: the work has a result, the result is to be stored,
and the store accepts it. -/
def commits {α : Type} (iv : Interview) (σ : Store) (id : Id) (work : Flow (Decision α)) : Bool :=
  match σ.load id with
  | .error _ => false
  | .ok s =>
    match iv.perform work s with
    | (.error _, _) => false
    | (.ok decision, desk) => decision.commit && (σ.save desk.session).isOk

/-- A request on a session leaves the store as it is or is committed. -/
theorem transact_cases {α : Type} (iv : Interview) (σ : Store) (id : Id)
    (work : Flow (Decision α)) :
    (iv.commits σ id work = false ∧ (iv.transact σ id work undisturbed).store = σ) ∨
      iv.commits σ id work = true ∧ ∃ s a d t, σ.load id = .ok s ∧
        iv.perform work s = (.ok a, d) ∧ a.commit = true ∧
          σ.save d.session = .ok (t, (iv.transact σ id work undisturbed).store) := by
  unfold transact commits
  rcases hload : σ.load id with e | s
  · exact .inl ⟨rfl, rfl⟩
  dsimp only
  rcases hwork : iv.perform work s with ⟨e | a, d⟩
  · exact .inl ⟨rfl, rfl⟩
  dsimp only [conclude, undisturbed]
  cases hcommit : a.commit with
  | false => exact .inl ⟨rfl, rfl⟩
  | true =>
    rw [if_pos rfl]
    rcases hsave : σ.save d.session with e | ⟨t, after⟩
    · exact .inl ⟨rfl, rfl⟩
    · exact .inr ⟨rfl, s, a, d, t, rfl, hwork, hcommit, hsave⟩

/-- A request on a session that has a reply did its work, and is committed if the work is to be
stored. -/
theorem transact_ok {α : Type} {work : Flow (Decision α)} {reply : α}
    (h : (iv.transact σ id work undisturbed).reply = .ok reply) :
    ∃ s a d, σ.find? id = some s ∧ iv.perform work s = (.ok a, d) ∧ a.reply = reply ∧
      iv.commits σ id work = a.commit ∧
      (a.commit = false → (iv.transact σ id work undisturbed).store = σ) := by
  unfold transact commits at *
  rcases hload : σ.load id with e | s <;> rw [hload] at h
  · cases h
  dsimp only at h ⊢
  rcases hwork : iv.perform work s with ⟨e | a, d⟩ <;> rw [hwork] at h
  · cases h
  refine ⟨s, a, d, Store.find?_of_load hload, hwork, ?_⟩
  dsimp only [conclude, undisturbed] at h ⊢
  cases hcommit : a.commit with
  | false =>
    rw [hcommit] at h
    cases h
    exact ⟨rfl, by simp, fun _ => rfl⟩
  | true =>
    rw [hcommit, if_pos rfl] at h
    rcases hsave : σ.save d.session with e | ⟨t, after⟩ <;> rw [hsave] at h <;> cases h
    exact ⟨rfl, rfl, fun hc => nomatch hc⟩

/-! ## Stores that keep sessions as they are -/

/-- A store that requests lead to from an empty one that keeps sessions as they are. Such a store
takes every session, so there is nothing to ask of what a request leaves behind. -/
structure ReachableInMemory (iv : Interview) (σ : Store) : Prop where
  reachable : iv.Reachable σ
  inMemory : Store.emptyMemory.SameForm σ

namespace ReachableInMemory

theorem empty : iv.ReachableInMemory .emptyMemory := ⟨.emptyMemory, trivial⟩

theorem start (h : iv.ReachableInMemory σ) (g : Generator) (id : Id) (embedded : Register Value) :
    iv.ReachableInMemory ((iv.drawing g).start σ id embedded).store where
  reachable := h.reachable.start g id embedded fun _ d _ =>
    Store.takes_of_memory h.inMemory d.session
  inMemory := by
    rcases start_cases (iv.drawing g) σ id embedded with hsame | ⟨_, _, _, _, hcreate⟩
    · rw [hsame]
      exact h.inMemory
    · exact h.inMemory.trans (Store.sameForm_of_create hcreate)

theorem serve (h : iv.ReachableInMemory σ) (g : Generator) {α : Type} {work : Flow (Decision α)}
    (hoffer : (iv.drawing g).Offers id work) :
    iv.ReachableInMemory ((iv.drawing g).transact σ id work undisturbed).store where
  reachable := h.reachable.serve g hoffer fun _ _ d _ _ _ =>
    Store.takes_of_memory h.inMemory d.session
  inMemory := by
    rcases transact_cases (iv.drawing g) σ id work with
      ⟨-, hsame⟩ | ⟨-, _, _, _, _, _, _, _, hsave⟩
    · rw [hsame]
      exact h.inMemory
    · exact h.inMemory.trans (Store.sameForm_of_save hsave)

theorem nextPage (h : iv.ReachableInMemory σ) (id : Id) (fromPage : Option Id) :
    iv.ReachableInMemory (iv.nextPage σ id fromPage).store :=
  h.serve iv.unseeded (.forward fromPage)

theorem submitAnswer (h : iv.ReachableInMemory σ) (id : Id) {q : Question} {questionId : Id}
    (hq : iv.survey.question? questionId = some q) (answer : Value)
    (hanswer : answer.isAnswer = true) :
    iv.ReachableInMemory (iv.submitAnswer σ id questionId answer).store := by
  simp only [Interview.submitAnswer, submitAnswerDuring, hq]
  exact h.serve iv.unseeded (.record hq hanswer)

end ReachableInMemory

/-! ## Invariants -/

/-- A session in its place in a store: its id leads there as the one does under which it is found,
its version is a count, and it has a property. -/
structure Placed (σ : Store) (P : Session → Prop) (id : Id) (s : Session) : Prop where
  id : σ.samePlace s.id id = true
  version : ∃ n : Nat, s.version = .int n
  property : P s

/-- A property of all stored sessions. -/
def Everywhere (P : Session → Prop) (σ : Store) : Prop :=
  ∀ id s, σ.find? id = some s → Placed σ P id s

variable {P : Session → Prop}

/-- A write of a session with the property keeps it everywhere. -/
theorem Everywhere.stores {after : Store} {n : Nat} (h : Everywhere P σ)
    (hafter : σ.Stores (s.atVersion n) after) (hs : P (s.atVersion n)) : Everywhere P after := by
  intro j t ht
  rw [hafter.2 j] at ht
  split at ht
  · next hplace =>
    cases ht
    rw [Store.samePlace_comm, hafter.1.samePlace] at hplace
    exact ⟨hplace, ⟨n, rfl⟩, hs⟩
  · obtain ⟨hid, hversion, hP⟩ := h j t ht
    exact ⟨(hafter.1.samePlace _ _).symm.trans hid, hversion, hP⟩

/-- A property that a new session has on its first page holds everywhere after it was started. -/
theorem Everywhere.start (h : Everywhere P σ) (hversion : ∀ s n, P s → P (s.atVersion n))
    {embedded : Register Value}
    (hbegin : Ensures (· = .new id iv.survey.id embedded) iv.begin fun _ => P)
    (htakes : ∀ u d, iv.perform iv.begin (.new id iv.survey.id embedded) = (.ok u, d) →
      σ.Takes d.session) : Everywhere P (iv.start σ id embedded).store := by
  rcases start_cases iv σ id embedded with hsame | ⟨u, d, s, hperform, hcreate⟩
  · rw [hsame]
    exact h
  · have hd : P d.session := hbegin _ u d rfl hperform
    rcases Store.create_cases (htakes u d hperform) with ⟨e, herr⟩ | ⟨-, after, hok, hafter⟩
    · rw [herr] at hcreate
      cases hcreate
    · rw [hok] at hcreate
      cases hcreate
      exact h.stores hafter (hversion _ _ hd)

/-- A property that the work of a request keeps holds everywhere after the request. -/
theorem Everywhere.transact {α : Type} {work : Flow (Decision α)} (h : Everywhere P σ)
    (hversion : ∀ s n, P s → P (s.atVersion n)) (hwork : Keeps P work)
    (htakes : ∀ s a d, σ.load id = .ok s → iv.perform work s = (.ok a, d) → a.commit = true →
      σ.Takes d.session) : Everywhere P (iv.transact σ id work undisturbed).store := by
  rcases transact_cases iv σ id work with
    ⟨-, hsame⟩ | ⟨-, s, a, d, t, hload, hperform, hcommit, hsave⟩
  · rw [hsame]
    exact h
  · have hs := h id s (Store.find?_of_load hload)
    have hd : P d.session := hwork _ a d hs.property hperform
    have htake := htakes s a d hload hperform hcommit
    obtain ⟨n, rfl, hafter⟩ :=
      Store.stores_of_save htake (fun t ht => (h _ t ht).version) hsave
    exact h.stores hafter (hversion _ _ hd)

/-- In an empty store anything holds of all sessions. -/
theorem Everywhere.of_empty (h : ∀ id, σ.find? id = none) : Everywhere P σ := by
  intro id s hs
  rw [h id] at hs
  cases hs

/-- What holds of new sessions and is kept by the work of every request holds of all stored
sessions. -/
theorem Reachable.invariant (hversion : ∀ s n, P s → P (s.atVersion n))
    (hbegin : ∀ g id embedded,
      Ensures (· = .new id iv.survey.id embedded) (iv.drawing g).begin fun _ => P)
    (hwork : ∀ {g id α} {work : Flow (Decision α)}, (iv.drawing g).Offers id work → Keeps P work)
    (h : iv.Reachable σ) : Everywhere P σ := by
  induction h with
  | emptyMemory => exact .of_empty Store.find?_emptyMemory
  | emptyFiles => exact .of_empty Store.find?_emptyFiles
  | start g id embedded _ htakes ih =>
    exact @Everywhere.start (iv.drawing g) _ _ _ ih hversion _ (hbegin g id embedded) htakes
  | serve g _ hoffer htakes ih => exact ih.transact hversion (hwork hoffer) htakes

end Interview

end Questionnaire
