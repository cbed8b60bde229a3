import Questionnaire.Proofs.Store.Slots

/-!
# Clients of one store

Any number of clients load sessions from one store and save what they made of them, each in atomic
steps and in any order (`Move`, `Scene.act`). A client keeps every state that it ever loaded and may
save a changed copy of any of them, as often as it likes; it leaves the id and the version alone.
The log tells which states were stored and from which state each was made.

The states stored under one id form a chain (`stored_in_one_chain`): the `k`-th state has version
`k`, it was made from the state before it, and the last one is what the store holds. What carries
this is that a state in a client's hands is one of the chain, and that its version tells where; so a
state whose version is the stored one is the stored one.

Ids that lead to one place in the store share their chain. In a store of records these need not be
the same ids (`create_reaches_other_id`).
-/

namespace Questionnaire

/-- What happens in one atomic step: a session is created, a client loads one, or it saves a session
that it made of the `n`-th state it loaded. -/
inductive Move (Client : Type)
  | create (s : Session)
  | load (c : Client) (id : Id)
  | save (c : Client) (n : Nat) (s : Session)

/-- A state that was stored: a new one, or one that a client made of another. -/
inductive Stored
  | created (state : Session)
  | saved (base state : Session)

/-- A store with its clients: the states that each of them loaded, in order, and the states that
were stored, in order. -/
structure Scene (Client : Type) where
  store : Store
  held : Client → List Session
  log : List Stored

namespace Move

variable {Client : Type}

/-- The id that a step is about. -/
def id : Move Client → Id
  | .create s => s.id
  | .load _ id => id
  | .save _ _ s => s.id

/-- A step with a session that the store gives back as it was put in, if it stores one. -/
def Suits (σ : Store) : Move Client → Prop
  | .create s => σ.Takes s
  | .load _ _ => True
  | .save _ _ s => σ.Takes s

end Move

namespace Stored

/-- The state that was stored. -/
def state : Stored → Session
  | .created t | .saved _ t => t

/-- The state from which the stored one was made, if it is not new. -/
def base? : Stored → Option Session
  | .created _ => none
  | .saved base _ => some base

end Stored

namespace Scene

variable {Client : Type}

/-- Nothing was loaded or stored yet. -/
def opening (σ : Store) : Scene Client := ⟨σ, fun _ => [], []⟩

/-- The scene after a state was stored. -/
def put (x : Scene Client) (e : Stored) (after : Store) : Scene Client :=
  { x with store := after, log := x.log ++ [e] }

/-- The scene after a step. A step that fails changes nothing, and neither does a save of what is
not made of a state that the client loaded. -/
def act [DecidableEq Client] (x : Scene Client) : Move Client → Scene Client
  | .create s =>
    match x.store.create s with
    | .ok (t, after) => x.put (.created t) after
    | .error _ => x
  | .load c id =>
    match x.store.load id with
    | .ok s => { x with held := fun d => if d = c then x.held d ++ [s] else x.held d }
    | .error _ => x
  | .save c n s =>
    match (x.held c)[n]? with
    | none => x
    | some base =>
      if s.id = base.id ∧ s.version = base.version then
        match x.store.save s with
        | .ok (t, after) => x.put (.saved base t) after
        | .error _ => x
      else x

/-- The scene after some steps, one after the other. -/
def run [DecidableEq Client] (x : Scene Client) (moves : List (Move Client)) : Scene Client :=
  moves.foldl act x

/-- What was stored in the place of an id, in order. -/
def logOf (x : Scene Client) (id : Id) : List Stored :=
  x.log.filter fun e => x.store.samePlace e.state.id id

/-- The states that were stored in the place of an id, in order. -/
def states (x : Scene Client) (id : Id) : List Session := (x.logOf id).map Stored.state

/-- The states from which those that were saved in the place of an id were made, in order. -/
def bases (x : Scene Client) (id : Id) : List Session := (x.logOf id).filterMap Stored.base?

/-! ## The chain of states -/

/-- The states under an id form a chain, and the store and the clients hold states of it. -/
structure Chained (x : Scene Client) (id : Id) : Prop where
  find : x.store.find? id = (x.states id).getLast?
  bases : x.bases id = (x.states id).dropLast
  version : ∀ (k : Nat) (t : Session), (x.states id)[k]? = some t → t.version = .int k
  held : ∀ c, ∀ s ∈ x.held c, x.store.samePlace s.id id = true → s ∈ x.states id

/-- A scene that a store of some form was brought into by its clients. -/
structure Sound (σ : Store) (x : Scene Client) : Prop where
  form : σ.SameForm x.store
  keyed : ∀ id s, x.store.find? id = some s → x.store.samePlace s.id id = true
  chained : ∀ id, x.Chained id

variable {σ : Store} {x : Scene Client} {s t base : Session} {id : Id} {c : Client} {n : Nat}

section Put
variable {e : Stored} {after : Store} (hform : x.store.SameForm after)
include hform

theorem logOf_put (j : Id) :
    (x.put e after).logOf j = x.logOf j ++ if x.store.samePlace e.state.id j then [e] else [] := by
  have hsame : after.samePlace = x.store.samePlace := by
    funext i j
    rw [hform.samePlace]
  simp [logOf, put, List.filter_append, List.filter_cons, hsame]

theorem states_put_of_samePlace (h : x.store.samePlace e.state.id id = true) :
    (x.put e after).states id = x.states id ++ [e.state] := by
  simp [states, logOf_put hform, h]

theorem bases_put_of_samePlace (h : x.store.samePlace e.state.id id = true) :
    (x.put e after).bases id = x.bases id ++ e.base?.toList := by
  cases e <;> simp [bases, logOf_put hform, h, Stored.base?]

end Put

/-- Ids that lead to one place have the same states. -/
theorem states_congr {j : Id} (h : x.store.samePlace id j = true) : x.states id = x.states j := by
  simp only [states, logOf]
  congr 2
  funext e
  exact Store.samePlace_congr h e.state.id

/-- A chain goes on with a state made of its last one, at the version after it. -/
theorem Chained.next {e : Stored} {after : Store} (h : x.Chained id)
    (hafter : x.store.Stores e.state after) (he : x.store.samePlace e.state.id id = true)
    (hbase : e.base? = (x.states id).getLast?)
    (hversion : e.state.version = .int (x.states id).length) : (x.put e after).Chained id := by
  have hstates := states_put_of_samePlace hafter.1 he
  refine ⟨?_, ?_, fun k t hk => ?_, fun c s hs hsid => ?_⟩
  · rw [hstates, List.getLast?_concat]
    exact (hafter.2 id).trans (if_pos (by rw [Store.samePlace_comm, he]))
  · rw [hstates, List.dropLast_concat, bases_put_of_samePlace hafter.1 he, h.bases, hbase]
    rcases List.eq_nil_or_concat (x.states id) with hnil | ⟨l, t, hl⟩
    · simp [hnil]
    · simp [hl]
  · rw [hstates] at hk
    rcases Nat.lt_trichotomy k (x.states id).length with hlt | rfl | hgt
    · rw [List.getElem?_append_left hlt] at hk
      exact h.version k t hk
    · rw [List.getElem?_concat_length] at hk
      cases hk
      exact hversion
    · rw [List.getElem?_eq_none (by simp; omega)] at hk
      cases hk
  · rw [hstates]
    exact List.mem_append_left _ (h.held c s hs ((hafter.1.samePlace _ _).trans hsid))

/-- A state that is stored in another place leaves a chain as it is. -/
theorem Chained.other {e : Stored} {after : Store} (h : x.Chained id)
    (hafter : x.store.Stores e.state after) (he : x.store.samePlace e.state.id id = false) :
    (x.put e after).Chained id := by
  have hlog : (x.put e after).logOf id = x.logOf id := by simp [logOf_put hafter.1, he]
  have hstates : (x.put e after).states id = x.states id := congrArg (List.map Stored.state) hlog
  have hbases : (x.put e after).bases id = x.bases id :=
    congrArg (List.filterMap Stored.base?) hlog
  refine ⟨?_, ?_, ?_, fun c s hs hsid => ?_⟩
  · rw [hstates, ← h.find]
    exact (hafter.2 id).trans (if_neg (by rw [Store.samePlace_comm, he]; exact Bool.false_ne_true))
  · rw [hstates, hbases, h.bases]
  · rw [hstates]; exact h.version
  · rw [hstates]
    exact h.held c s hs ((hafter.1.samePlace _ _).trans hsid)

/-- A client's state with the stored version is the stored state. -/
theorem Chained.eq_of_version (h : x.Chained id) (ht : x.store.find? id = some t)
    (hc : base ∈ x.held c) (hid : x.store.samePlace base.id id = true)
    (hv : base.version = t.version) : base = t := by
  obtain ⟨k, hk⟩ := List.mem_iff_getElem?.1 (h.held c base hc hid)
  rw [h.find, List.getLast?_eq_getElem?] at ht
  have := (h.version k base hk).symm.trans (hv.trans (h.version _ t ht))
  cases this
  exact Option.some.inj (hk.symm.trans ht)

/-- Of a client's states, the stored one alone can be saved; any other is stale. -/
theorem Sound.save_cases (h : x.Sound σ) (hc : base ∈ x.held c) (hid : s.id = base.id)
    (hv : s.version = base.version) (hs : σ.Takes s) :
    (x.store.find? s.id = some base ∧
      ∃ after, x.store.save s = .ok (s.atVersion (x.states s.id).length, after) ∧
        x.store.Stores (s.atVersion (x.states s.id).length) after) ∨
    (x.store.find? s.id ≠ some base ∧
      x.store.save s = .error (.staleSession s.id s.version)) := by
  have hx := h.chained s.id
  have hbid : x.store.samePlace base.id s.id = true := by rw [← hid, Store.samePlace_self]
  obtain ⟨k, hk⟩ := List.mem_iff_getElem?.1 (hx.held c base hc hbid)
  have hbv : base.version = .int k := hx.version k base hk
  have hpos : 0 < (x.states s.id).length := Nat.zero_lt_of_lt (List.getElem?_eq_some_iff.1 hk).1
  obtain ⟨t, ht⟩ : ∃ t, (x.states s.id).getLast? = some t :=
    ⟨_, List.getLast?_eq_some_getLast (List.ne_nil_of_length_pos hpos)⟩
  have hfind : x.store.find? s.id = some t := hx.find.trans ht
  have htv : t.version = .int ((x.states s.id).length - 1 : Nat) := by
    rw [List.getLast?_eq_getElem?] at ht
    exact hx.version _ t ht
  by_cases hv' : base.version = t.version
  · left
    have hbt : base = t := hx.eq_of_version hfind hc hbid hv'
    have hsave := Store.save_of_version_eq hfind htv (hv.trans (hv'.trans htv)) (h.form.takes.1 hs)
    rw [Nat.sub_add_cancel hpos] at hsave
    exact ⟨hbt ▸ hfind, hsave⟩
  · right
    refine ⟨fun hb => hv' ?_, Store.save_of_version_ne hfind ?_⟩
    · cases hfind.symm.trans hb
      rfl
    · rw [hv, hbv, htv, Value.equal_int, decide_eq_false_iff_not]
      exact fun e => hv' (by rw [hbv, htv, e])

/-- Nothing was stored in an empty store, and no client holds anything. -/
theorem Sound.opening (hσ : σ = .emptyMemory ∨ σ = .emptyFiles) :
    (Scene.opening σ : Scene Client).Sound σ := by
  have hfind : ∀ id, σ.find? id = none := by
    rcases hσ with rfl | rfl
    · exact Store.find?_emptyMemory
    · exact Store.find?_emptyFiles
  exact
    { form := .refl σ
      keyed := fun id s h => by
        have h : σ.find? id = some s := h
        rw [hfind] at h
        cases h
      chained := fun id =>
        { find := hfind id
          bases := rfl
          version := fun _ _ h => by cases h
          held := fun _ _ h => by cases h } }

/-- A state that is stored keeps a scene sound if it is made of the last one in its place. -/
theorem Sound.put {e : Stored} {after : Store} (h : x.Sound σ)
    (hafter : x.store.Stores e.state after) (hbase : e.base? = x.store.find? e.state.id)
    (hversion : e.state.version = .int (x.states e.state.id).length) : (x.put e after).Sound σ := by
  refine ⟨h.form.trans hafter.1, fun j t ht => ?_, fun j => ?_⟩
  · rw [show (x.put e after).store.samePlace t.id j = _ from (hafter.1.samePlace _ _).symm]
    rw [show (x.put e after).store.find? j = _ from hafter.2 j] at ht
    split at ht
    · next hplace => cases ht; rw [Store.samePlace_comm, hplace]
    · exact h.keyed j t ht
  · cases he : x.store.samePlace e.state.id j with
    | false => exact (h.chained j).other hafter he
    | true =>
      have hstates := states_congr he
      refine (h.chained j).next hafter he ?_ (hstates ▸ hversion)
      rw [hbase, (h.chained _).find, hstates]

variable [DecidableEq Client]

/-- A step keeps a scene sound. -/
theorem Sound.act {m : Move Client} (h : x.Sound σ) (hm : m.Suits σ) : (x.act m).Sound σ := by
  cases m with
  | create s =>
    rcases Store.create_cases (h.form.takes.1 hm) with ⟨e, hfail⟩ | ⟨hnone, after, hok, hafter⟩
    · simpa only [Scene.act, hfail] using h
    · simp only [Scene.act, hok]
      have hnil : x.states s.id = [] := by
        rw [(h.chained s.id).find] at hnone
        exact List.getLast?_eq_none_iff.1 hnone
      exact h.put hafter hnone.symm (by simp [Stored.state, hnil])
  | load c id =>
    simp only [Scene.act]
    split
    · next s hload =>
      have hfind := Store.find?_of_load hload
      refine ⟨h.form, h.keyed, fun j => ⟨(h.chained j).find, (h.chained j).bases,
        (h.chained j).version, fun d t ht htj => ?_⟩⟩
      have ht : t ∈ x.held d ∨ t = s := by
        simp only at ht
        split at ht
        · simpa using ht
        · exact .inl ht
      rcases ht with ht | rfl
      · exact (h.chained j).held d t ht htj
      · have hid : x.store.samePlace id j = true := by
          have hkeyed := h.keyed id t hfind
          rw [Store.samePlace_comm] at hkeyed
          exact Store.samePlace_trans hkeyed htj
        rw [(h.chained id).find] at hfind
        show t ∈ x.states j
        rw [← states_congr hid]
        exact List.mem_of_getLast? hfind
    · exact h
  | save c n s =>
    simp only [Scene.act]
    split
    · exact h
    · next base hbase =>
      split
      · next hsame =>
        rcases h.save_cases (List.mem_of_getElem? hbase) hsame.1 hsame.2 hm with
          ⟨hfind, after, hok, hafter⟩ | ⟨-, hstale⟩
        · simp only [hok]
          exact h.put (e := .saved base (s.atVersion _)) hafter hfind.symm rfl
        · simpa only [hstale] using h
      · exact h

/-- Steps keep a scene sound. -/
theorem Sound.run {moves : List (Move Client)} (h : x.Sound σ) (hm : ∀ m ∈ moves, m.Suits σ) :
    (x.run moves).Sound σ := by
  induction moves generalizing x with
  | nil => exact h
  | cons m r ih => exact ih (h.act (hm m (.head _))) fun m' hm' => hm m' (.tail _ hm')

/-- Two clients load a new session, and both save what they made of it. -/
def race : List (Move Nat) :=
  let s : Session := .new (.text "s1") (.text "survey") ∅
  [.create s, .load 0 s.id, .load 1 s.id, .save 0 0 (s.moveTo (some (.text "p2"))),
    .save 1 0 (s.moveTo (some (.text "p9")))]

end Scene

end Questionnaire
