import Questionnaire.Proofs.Interview.Keeping
import Questionnaire.Proofs.Interview.Reachable

/-!
# Runs of requests

A run leads from one store to another by requests to an interview, one after the other, and counts
which of them were committed (`Interview.Run`). Answers may be values of any kind here. The
induction over the requests is `Run.everywhere`: what new sessions have and the work of every
request keeps, all sessions have that a run leads to, if those at its start had it.

Work keeps the id and the version of a session (`Asks.keeps_fixed`), so a session goes on to be
found where it was created, and its version counts the commits since then (`Run.version_eq`).
-/

namespace Questionnaire

open Flow

namespace Interview

variable {iv : Interview} {σ₀ σ : Store} {ids : List Id} {s t : Session} {id j : Id}
  {P : Session → Prop} {α : Type} {work : Flow (Decision α)}

/-- The work of the requests on a session with an id, where an answer may be a value of any kind. -/
inductive Asks (iv : Interview) (id : Id) : {α : Type} → Flow (Decision α) → Prop
  | offered {α : Type} {work : Flow (Decision α)} : iv.Offers id work → iv.Asks id work
  | record {q : Question} {questionId : Id} {answer : Value} :
      iv.survey.question? questionId = some q → iv.Asks id (iv.record id questionId answer)

/-- Whether the store takes what a request on a session leaves behind, if that is to be stored. -/
def IsTaken (iv : Interview) (σ : Store) (id : Id) (work : Flow (Decision α)) : Prop :=
  ∀ s a d, σ.load id = .ok s → iv.perform work s = (.ok a, d) → a.commit = true →
    σ.Takes d.session

/-- The stores that requests to an interview lead to from a store, each with the ids under which
commits were made on the way. -/
inductive Run (iv : Interview) (σ₀ : Store) : List Id → Store → Prop
  | nil : iv.Run σ₀ [] σ₀
  | start {ids : List Id} {σ : Store} (g : Generator) (id : Id) (embedded : Register Value) :
      iv.Run σ₀ ids σ →
      (∀ u d, (iv.drawing g).perform (iv.drawing g).begin (.new id iv.survey.id embedded) =
        (.ok u, d) → σ.Takes d.session) →
      iv.Run σ₀ ids ((iv.drawing g).start σ id embedded).store
  | serve {ids : List Id} {σ : Store} (g : Generator) {id : Id} {α : Type}
      {work : Flow (Decision α)} :
      iv.Run σ₀ ids σ → (iv.drawing g).Asks id work → (iv.drawing g).IsTaken σ id work →
      iv.Run σ₀ (if (iv.drawing g).commits σ id work then ids ++ [id] else ids)
        ((iv.drawing g).transact σ id work undisturbed).store

/-! ## What work keeps -/

/-- The work of every request keeps what navigation, new answers and dropped plans respect. -/
theorem Asks.keeps (law : PlanLaw iv.survey P)
    (hrespond : ∀ s questionId answer, P s → P (s.respond questionId answer))
    (hdrop : ∀ s batteryId, P s → P (s.dropPlan batteryId)) (h : iv.Asks id work) :
    Keeps P work := by
  cases h with
  | record => exact keeps_record law hrespond hdrop _ _ _
  | offered h =>
    cases h with
    | locate => exact keeps_locate
    | forward fromPage => exact keeps_forward law _ fromPage
    | backward fromPage => exact keeps_backward law fromPage
    | record => exact keeps_record law hrespond hdrop _ _ _
    | render page => exact keeps_render law _ page
    | report batteryId => exact keeps_report batteryId

/-- The work of every request keeps the id and the version of a session. -/
theorem Asks.keeps_fixed (h : iv.Asks id work) (sessionId : Id) (version : Value) :
    Keeps (fun s => (s.id = sessionId ∧ s.version = version) ∧ s.Counted) work :=
  h.keeps ((cursorLaw iv.survey).fixed sessionId version) (fun _ _ _ hs => hs)
    fun _ _ hs => ⟨hs.1, hs.2.dropPlan⟩

theorem counted_new (id surveyId : Id) (embedded : Register Value) :
    (Session.new id surveyId embedded).Counted := by
  intro j p hp
  have hp : (∅ : Register LoopPlan).get? j = some p := hp
  rw [Register.get?_empty] at hp
  cases hp

/-! ## Invariants of runs -/

namespace Run

theorem sameForm (h : iv.Run σ₀ ids σ) : σ₀.SameForm σ := by
  induction h with
  | nil => exact .refl σ₀
  | start g id embedded _ _ ih =>
    rcases start_cases (iv.drawing g) _ id embedded with hsame | ⟨_, _, _, _, hcreate⟩
    · rwa [hsame]
    · exact ih.trans (Store.sameForm_of_create hcreate)
  | @serve _ σ g id _ work _ _ _ ih =>
    rcases transact_cases (iv.drawing g) σ id work with
      ⟨-, hsame⟩ | ⟨-, _, _, _, _, _, _, _, hsave⟩
    · rwa [hsame]
    · exact ih.trans (Store.sameForm_of_save hsave)

/-- What new sessions have and the work of every request keeps, all sessions have at the end of a
run, if all had it at the start. -/
theorem everywhere (hversion : ∀ s n, P s → P (s.atVersion n))
    (hbegin : ∀ g id embedded,
      Ensures (· = .new id iv.survey.id embedded) (iv.drawing g).begin fun _ => P)
    (hwork : ∀ {g id α} {work : Flow (Decision α)}, (iv.drawing g).Asks id work → Keeps P work)
    (h₀ : Everywhere P σ₀) (h : iv.Run σ₀ ids σ) : Everywhere P σ := by
  induction h with
  | nil => exact h₀
  | start g id embedded _ htakes ih =>
    exact @Everywhere.start (iv.drawing g) _ _ _ ih hversion _ (hbegin g id embedded) htakes
  | serve g _ hasks htakes ih => exact ih.transact hversion (hwork hasks) htakes

/-- What new plans, moved cursors, new answers and dropped plans respect holds of all sessions at
the end of a run, if it held at the start. -/
theorem everywhere_of_law (law : PlanLaw iv.survey P)
    (hversion : ∀ s n, P s → P (s.atVersion n))
    (hnew : ∀ id embedded, P (.new id iv.survey.id embedded))
    (hrespond : ∀ s questionId answer, P s → P (s.respond questionId answer))
    (hdrop : ∀ s batteryId, P s → P (s.dropPlan batteryId))
    (h₀ : Everywhere P σ₀) (h : iv.Run σ₀ ids σ) : Everywhere P σ := by
  refine h.everywhere hversion (fun g id embedded => ?_) (fun {g _ _ _} hasks => ?_) h₀
  · refine (@keeps_begin (iv.drawing g) P law).mono ?_ fun _ _ hs => hs
    rintro _ rfl
    exact hnew id embedded
  · exact @Asks.keeps (iv.drawing g) _ _ _ _ law hrespond hdrop hasks

theorem counted (h₀ : Everywhere Session.Counted σ₀) (h : iv.Run σ₀ ids σ) :
    Everywhere Session.Counted σ :=
  h.everywhere_of_law (cursorLaw iv.survey) (fun _ _ hs => hs) (fun _ _ => counted_new _ _ _)
    (fun _ _ _ hs => hs) (fun _ _ hs => hs.dropPlan) h₀

end Run

/-! ## What commits do -/

/-- What a request leaves behind is saved in the place of the session, one version later, if it is
to be stored. -/
theorem Asks.exists_save {a : Decision α} {d : Desk} (h : iv.Asks id work)
    (htaken : iv.IsTaken σ id work) (hσ : Everywhere Session.Counted σ) (hs : σ.find? id = some s)
    (hperform : iv.perform work s = (.ok a, d)) (hcommit : a.commit = true) :
    ∃ (n : Nat) (after : Store), s.version = .int n ∧ σ.samePlace d.session.id id = true ∧
      σ.save d.session = .ok (d.session.atVersion (n + 1), after) ∧
        σ.Stores (d.session.atVersion (n + 1)) after := by
  obtain ⟨hplace, ⟨n, hn⟩, hcounted⟩ := hσ id s hs
  obtain ⟨⟨hid, hversion⟩, -⟩ :=
    h.keeps_fixed s.id s.version _ a d ⟨⟨rfl, rfl⟩, hcounted⟩ hperform
  have hfind : σ.find? d.session.id = some s := by rw [hid, Store.find?_of_samePlace hplace, hs]
  obtain ⟨after, hsave, hstores⟩ := Store.save_of_version_eq hfind hn (hversion.trans hn)
    (htaken s a d (Store.load_of_find? hs) hperform hcommit)
  exact ⟨n, after, hn, by rw [hid, hplace], hsave, hstores⟩

/-- A committed request stores what its work made of the session, one version later. -/
theorem Asks.stores_of_commits (h : iv.Asks id work) (htaken : iv.IsTaken σ id work)
    (hσ : Everywhere Session.Counted σ) (hcommits : iv.commits σ id work = true) :
    ∃ s a d n, σ.find? id = some s ∧ iv.perform work s = (.ok a, d) ∧ s.version = .int (n : Nat) ∧
      σ.samePlace d.session.id id = true ∧
        σ.Stores (d.session.atVersion (n + 1)) (iv.transact σ id work undisturbed).store := by
  rcases transact_cases iv σ id work with
    ⟨hnone, -⟩ | ⟨-, s, a, d, t, hload, hperform, hcommit, hsave⟩
  · rw [hcommits] at hnone
    cases hnone
  have hs := Store.find?_of_load hload
  obtain ⟨n, after, hn, hplace, hsave', hstores⟩ := h.exists_save htaken hσ hs hperform hcommit
  obtain ⟨rfl, rfl⟩ := Prod.mk.inj (Except.ok.inj (hsave.symm.trans hsave'))
  exact ⟨s, a, d, n, hs, hperform, hn, hplace, hstores⟩

/-! ## What is found after a request -/

/-- A request that is committed has the reply of its work. -/
theorem reply_of_commits {a : Decision α} {d : Desk} (hs : σ.find? id = some s)
    (hperform : iv.perform work s = (.ok a, d)) (h : iv.commits σ id work = true) :
    (iv.transact σ id work undisturbed).reply = .ok a.reply := by
  have hload := Store.load_of_find? hs
  simp only [commits, hload, hperform, Bool.and_eq_true] at h
  obtain ⟨hcommit, haccepted⟩ := h
  simp only [transact, hload, hperform, conclude, undisturbed, hcommit, if_true]
  cases hsave : σ.save d.session with
  | error e => rw [hsave] at haccepted; cases haccepted
  | ok r => rfl

/-- After a request a session is found as it was, unless the request is committed on that very
session; then it is found as the work left it. -/
theorem Asks.find?_after (hasks : iv.Asks j work) (htaken : iv.IsTaken σ j work)
    (hσ : Everywhere Session.Counted σ) (ht : σ.find? id = some t) :
    (iv.transact σ j work undisturbed).store.find? id = some t ∧
        (iv.commits σ j work = false ∨ σ.samePlace j id = false) ∨
      ∃ a d n, iv.perform work t = (.ok a, d) ∧
        (iv.transact σ j work undisturbed).reply = .ok a.reply ∧ σ.samePlace j id = true ∧
        (iv.transact σ j work undisturbed).store.find? id = some (d.session.atVersion n) := by
  cases hcommits : iv.commits σ j work with
  | false =>
    rcases transact_cases iv σ j work with ⟨-, hsame⟩ | ⟨hyes, -⟩
    · rw [hsame]
      exact .inl ⟨ht, .inl rfl⟩
    · rw [hcommits] at hyes
      cases hyes
  | true =>
    obtain ⟨s, a, d, n, hs, hperform, -, hplace, hstores⟩ :=
      hasks.stores_of_commits htaken hσ hcommits
    have hreply := reply_of_commits hs hperform hcommits
    have hfound := hstores.2 id
    rw [Session.atVersion_id, Store.samePlace_congr hplace, Store.samePlace_comm] at hfound
    cases hhere : σ.samePlace j id with
    | false =>
      rw [hhere, if_neg Bool.false_ne_true, ht] at hfound
      exact .inl ⟨hfound, .inr rfl⟩
    | true =>
      rw [Store.find?_of_samePlace hhere, ht] at hs
      cases hs
      rw [hhere, if_pos rfl] at hfound
      exact .inr ⟨a, d, n + 1, hperform, hreply, rfl, hfound⟩

/-- A request to start a session leaves those that are stored as they are. -/
theorem find?_after_start {embedded : Register Value}
    (htakes : ∀ u d, iv.perform iv.begin (.new j iv.survey.id embedded) = (.ok u, d) →
      σ.Takes d.session) (ht : σ.find? id = some t) :
    (iv.start σ j embedded).store.find? id = some t := by
  rcases start_cases iv σ j embedded with hsame | ⟨u, d, s, hperform, hcreate⟩
  · rwa [hsame]
  · rcases Store.create_cases (htakes u d hperform) with ⟨e, herr⟩ | ⟨hnone, after, hok, hafter⟩
    · rw [herr] at hcreate
      cases hcreate
    · rw [hok] at hcreate
      cases hcreate
      rw [hafter.2]
      split
      · next hplace =>
        rw [Session.atVersion_id] at hplace
        rw [← Store.find?_of_samePlace hplace, ht] at hnone
        cases hnone
      · exact ht

namespace Run

/-- A session goes on to be stored. -/
theorem exists_find? (h₀ : Everywhere Session.Counted σ₀) (h : iv.Run σ₀ ids σ)
    (hs : (σ₀.find? id).isSome) : ∃ t, σ.find? id = some t := by
  induction h with
  | nil => exact Option.isSome_iff_exists.1 hs
  | start g j embedded _ htakes ih =>
    obtain ⟨t, ht⟩ := ih
    exact ⟨t, find?_after_start htakes ht⟩
  | serve g hrun hasks htaken ih =>
    obtain ⟨t, ht⟩ := ih
    rcases hasks.find?_after htaken (hrun.counted h₀) ht with ⟨hsame, -⟩ | ⟨_, _, _, -, -, -, hnew⟩
    · exact ⟨t, hsame⟩
    · exact ⟨_, hnew⟩

/-- A session that is found has as its version the number of commits made in its place, and no
commit was made where none is found. -/
def CountsUnder (σ : Store) (ids : List Id) (id : Id) : Prop :=
  match σ.find? id with
  | none => ids.countP (σ.samePlace id) = 0
  | some s => s.version = .int (ids.countP (σ.samePlace id) : Nat)

/-- Where a session is stored, the ids under which commits were made lead as before. -/
theorem countP_samePlace_congr {σ τ : Store} {t : Session} (h : σ.Stores t τ) (id : Id) :
    ids.countP (τ.samePlace id) = ids.countP (σ.samePlace id) :=
  List.countP_congr fun j _ => by rw [h.1.samePlace]

theorem countsUnder (hempty : ∀ id, σ₀.find? id = none) (h : iv.Run σ₀ ids σ) (id : Id) :
    CountsUnder σ ids id := by
  induction h with
  | nil => simp [CountsUnder, hempty]
  | @start ids σ g j embedded _ htakes ih =>
    rcases start_cases (iv.drawing g) σ j embedded with hsame | ⟨u, d, s, hperform, hcreate⟩
    · rwa [hsame]
    · rcases Store.create_cases (htakes u d hperform) with ⟨e, herr⟩ | ⟨hnone, after, hok, hafter⟩
      · rw [herr] at hcreate
        cases hcreate
      · rw [hok] at hcreate
        obtain ⟨rfl, hstore⟩ := Prod.mk.inj (Except.ok.inj hcreate)
        rw [← hstore]
        unfold CountsUnder at ih ⊢
        rw [hafter.2, countP_samePlace_congr hafter]
        cases hplace : σ.samePlace id d.session.id with
        | true =>
          rw [Store.find?_of_samePlace hplace, hnone] at ih
          rw [Session.atVersion_id, hplace, if_pos rfl, ih]
          rfl
        | false =>
          rw [Session.atVersion_id, hplace]
          exact ih
  | @serve ids σ g j _ work hrun hasks htaken ih =>
    cases hcommits : (iv.drawing g).commits σ j work with
    | false =>
      rcases transact_cases (iv.drawing g) σ j work with ⟨-, hsame⟩ | ⟨hyes, -⟩
      · rwa [hsame]
      · rw [hcommits] at hyes
        cases hyes
    | true =>
      obtain ⟨s, a, d, n, hs, -, hn, hplace, hafter⟩ :=
        hasks.stores_of_commits htaken (hrun.counted (.of_empty hempty)) hcommits
      unfold CountsUnder at ih ⊢
      rw [hafter.2, countP_samePlace_congr hafter, if_pos rfl, List.countP_append,
        List.countP_singleton]
      rw [Session.atVersion_id]
      cases hhere : σ.samePlace id d.session.id with
      | true =>
        have hj : σ.samePlace id j = true := Store.samePlace_trans hhere hplace
        rw [Store.find?_of_samePlace hj, hs] at ih
        have hcount : (n : Int) = ids.countP (σ.samePlace id) := Value.int.inj (hn.symm.trans ih)
        rw [if_pos rfl, hj, if_pos rfl, ← Int.ofNat.inj hcount]
        rfl
      | false =>
        have hj : σ.samePlace id j = false := by
          rw [← Store.samePlace_congr hplace, hhere]
        simpa only [hj, if_false, Bool.false_eq_true, Nat.add_zero] using ih

/-- The version of a session is the number of commits since it was created. -/
theorem version_eq (hempty : ∀ id, σ₀.find? id = none) (h : iv.Run σ₀ ids σ)
    (hs : σ.find? id = some s) : s.version = .int (ids.countP (σ.samePlace id) : Nat) := by
  have hcounts := h.countsUnder hempty id
  unfold CountsUnder at hcounts
  rwa [hs] at hcounts

/-- What a run leads to from a store that keeps sessions as they are takes every session. -/
theorem isTaken (h : iv.Run .emptyMemory ids σ) : iv.IsTaken σ id work :=
  fun _ _ d _ _ _ => Store.takes_of_memory h.sameForm d.session

/-- In a store that keeps sessions as they are, a request whose work is to be stored is committed,
and the run goes on from there. -/
theorem next {n : Nat} {a : Decision α} (h : iv.Run .emptyMemory ids σ ∧ σ.find? id = some s)
    (hn : s.version = .int n) (hasks : iv.Asks id work)
    (hwork : (iv.perform work s).1 = .ok a ∧ (iv.perform work s).2.session = t)
    (hcommit : a.commit = true) :
    let served := iv.transact σ id work undisturbed
    (iv.Run .emptyMemory (ids ++ [id]) served.store ∧
      served.store.find? id = some (t.atVersion (n + 1))) ∧ served.reply = .ok a.reply := by
  intro served
  obtain ⟨hrun, hs⟩ := h
  obtain ⟨d, hperform, rfl⟩ : ∃ d, iv.perform work s = (.ok a, d) ∧ d.session = t :=
    ⟨_, Prod.ext hwork.1 rfl, hwork.2⟩
  obtain ⟨m, after, hm, hplace, hsave, hstores⟩ := hasks.exists_save hrun.isTaken
    (hrun.counted (.of_empty Store.find?_emptyMemory)) hs hperform hcommit
  obtain rfl : n = m := Int.ofNat.inj (Value.int.inj (hn.symm.trans hm))
  have hserved : served.reply = .ok a.reply ∧ served.store = after ∧
      (iv.drawing iv.unseeded).commits σ id work = true := by
    have hload := Store.load_of_find? hs
    simp [served, transact, commits, hload, hperform, conclude, undisturbed, hcommit, hsave,
      Except.isOk, Except.toBool, drawing]
  refine ⟨⟨?_, ?_⟩, hserved.1⟩
  · have hnext := hrun.serve iv.unseeded hasks hrun.isTaken
    rwa [hserved.2.2, if_pos rfl] at hnext
  · rw [hserved.2.1, hstores.2, Store.samePlace_comm, Session.atVersion_id, hplace, if_pos rfl]

end Run

/-- What requests lead to from an empty store is the end of a run. -/
theorem Reachable.exists_run (h : iv.Reachable σ) :
    ∃ σ₀ ids, (∀ id, σ₀.find? id = none) ∧ iv.Run σ₀ ids σ := by
  induction h with
  | emptyMemory => exact ⟨_, _, Store.find?_emptyMemory, .nil⟩
  | emptyFiles => exact ⟨_, _, Store.find?_emptyFiles, .nil⟩
  | start g id embedded _ htakes ih =>
    obtain ⟨σ₀, ids, hempty, hrun⟩ := ih
    exact ⟨σ₀, ids, hempty, hrun.start g id embedded htakes⟩
  | serve g _ hoffer htaken ih =>
    obtain ⟨σ₀, ids, hempty, hrun⟩ := ih
    exact ⟨σ₀, _, hempty, hrun.serve g (.offered hoffer) htaken⟩

end Interview

end Questionnaire
