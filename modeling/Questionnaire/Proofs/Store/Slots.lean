import Questionnaire.Session.Store

/-!
# What a store gives back

A store is seen through its look-ups. Two ids may lead to one place (`Store.samePlace`): in a store
of records those whose files have one path, so that a directory can be named in more than one way. A
session that the store takes comes back as it was put in (`Store.Takes`): any session from a store
that keeps sessions as they are, and from a store of records those whose record reads back. For
these, `create_cases`, `save_of_version_eq` and `save_of_version_ne` say when a session is stored,
and what every look-up finds afterwards: the new session in its place, and all else as before.
-/

namespace Questionnaire

theorem Value.equal_int (a b : Int) : (Value.int a).equal (.int b) = decide (a = b) := by
  rw [Bool.eq_iff_iff, decide_eq_true_iff]
  simp [Value.equal, Value.isNan, Value.agrees, Value.canonical]

/-- The session at a version. -/
def Session.atVersion (s : Session) (n : Nat) : Session := { s with version := .int n }

@[simp] theorem Session.atVersion_id (s : Session) (n : Nat) : (s.atVersion n).id = s.id := rfl

@[simp] theorem Session.atVersion_version (s : Session) (n : Nat) :
    (s.atVersion n).version = .int n := rfl

namespace Store

variable {σ τ : Store} {s t : Session} {id i j k : Id}

/-- Whether two stores keep sessions in the same form. -/
def SameForm : Store → Store → Prop
  | .memory _, .memory _ | .files _, .files _ => True
  | _, _ => False

/-- Whether two ids lead to one place in a store. The ids that name no file share a place where
there is never anything. -/
def samePlace (σ : Store) (i j : Id) : Bool :=
  match σ with
  | .memory _ => i.agrees j
  | .files _ => decide ((filePath i.display).toOption = (filePath j.display).toOption)

/-- A session that a store gives back as it was put in. -/
def Holds (σ : Store) (s : Session) : Prop :=
  match σ with
  | .memory _ => True
  | .files _ => ∃ text, s.record = .ok text ∧ sessionOf? text = some s

/-- A session that a store gives back as it was put in, whatever its version. -/
def Takes (σ : Store) (s : Session) : Prop := ∀ n, σ.Holds (s.atVersion n)

theorem SameForm.refl (σ : Store) : σ.SameForm σ := by cases σ <;> trivial

theorem SameForm.trans {υ : Store} (h : σ.SameForm τ) (h' : τ.SameForm υ) : σ.SameForm υ := by
  cases σ <;> cases τ <;> cases υ <;> trivial

theorem SameForm.samePlace (h : σ.SameForm τ) (i j : Id) : σ.samePlace i j = τ.samePlace i j := by
  cases σ <;> cases τ <;> first | rfl | exact h.elim

theorem SameForm.takes (h : σ.SameForm τ) : σ.Takes s ↔ τ.Takes s := by
  cases σ <;> cases τ <;> first | rfl | exact h.elim

/-- A store that keeps sessions as they are takes every session. -/
theorem takes_of_memory (h : emptyMemory.SameForm σ) (s : Session) : σ.Takes s := by
  cases σ with
  | memory _ => exact fun _ => trivial
  | files _ => exact h.elim

/-! ## Places -/

@[simp] theorem samePlace_self (σ : Store) (i : Id) : σ.samePlace i i = true := by
  cases σ with
  | memory _ => exact Value.agrees_self i
  | files _ => exact decide_eq_true rfl

theorem samePlace_comm (σ : Store) (i j : Id) : σ.samePlace i j = σ.samePlace j i := by
  cases σ with
  | memory _ => exact Value.agrees_comm i j
  | files _ => exact decide_eq_decide.2 eq_comm

theorem samePlace_trans (h : σ.samePlace i j = true) (h' : σ.samePlace j k = true) :
    σ.samePlace i k = true := by
  cases σ with
  | memory _ => exact Value.agrees_trans h h'
  | files _ => exact decide_eq_true ((of_decide_eq_true h).trans (of_decide_eq_true h'))

theorem samePlace_congr (h : σ.samePlace i j = true) (k : Id) :
    σ.samePlace k i = σ.samePlace k j := by
  rw [Bool.eq_iff_iff]
  refine ⟨fun hk => samePlace_trans hk h, fun hk => samePlace_trans hk ?_⟩
  rw [samePlace_comm, h]

/-- Ids that lead to one place lead to one session. -/
theorem find?_of_samePlace (h : σ.samePlace i j = true) : σ.find? i = σ.find? j := by
  cases σ with
  | memory sessions => exact Register.get?_congr sessions h
  | files records => simp only [find?, fileText?, of_decide_eq_true h]

/-! ## Look-ups -/

theorem find?_emptyMemory (id : Id) : emptyMemory.find? id = none := Register.get?_empty id

theorem find?_emptyFiles (id : Id) : emptyFiles.find? id = none := by
  simp only [emptyFiles, find?, fileText?]
  cases (filePath id.display).toOption <;> rfl

/-- A session is stored under an id if there is one to be found there. -/
theorem exists?_of_find? (h : σ.find? id = some s) : σ.exists? id = true := by
  cases σ with
  | memory sessions =>
    have h : sessions.get? id = some s := h
    simp [exists?, Register.contains, h]
  | files records =>
    obtain ⟨text, htext, -⟩ := Option.bind_eq_some_iff.1 h
    simp [exists?, htext]

/-- Where it can be told that there is no session, none is found. -/
theorem find?_of_existence (h : σ.existence id = .ok false) : σ.find? id = none := by
  have hex : σ.exists? id = false := by
    unfold existence at h
    split at h
    · exact Except.ok.inj h
    · exact Except.ok.inj h
    · cases h
  cases hfind : σ.find? id with
  | none => rfl
  | some s => rw [exists?_of_find? hfind] at hex; cases hex

theorem load_of_find? (h : σ.find? id = some s) : σ.load id = .ok s := by simp [load, h]

theorem find?_of_load (h : σ.load id = .ok s) : σ.find? id = some s := by
  unfold load at h
  split at h
  · cases h; assumption
  · cases h

/-! ## Writes -/

/-- What a write leads to: the session is found in its place, and all else is found as before. -/
def Stores (σ : Store) (s : Session) (after : Store) : Prop :=
  σ.SameForm after ∧ ∀ j, after.find? j = if σ.samePlace j s.id then some s else σ.find? j

/-- A write keeps the form of a store. -/
theorem sameForm_of_write {after : Store} (h : σ.write s = .ok after) : σ.SameForm after := by
  cases σ with
  | memory _ => cases h; trivial
  | files records =>
    simp only [write, bind, Except.bind] at h
    split at h
    · cases h
    · split at h <;> cases h
      trivial

/-- A store after a session was written keeps its form. -/
theorem sameForm_of_map_write {after : Store}
    (h : (σ.write s).map (fun after => (s, after)) = .ok (t, after)) : σ.SameForm after := by
  cases hwrite : σ.write s with
  | error e => rw [hwrite] at h; cases h
  | ok written =>
    rw [hwrite] at h
    cases h
    exact sameForm_of_write hwrite

theorem sameForm_of_create {after : Store} (h : σ.create s = .ok (t, after)) :
    σ.SameForm after := by
  simp only [create, bind, Except.bind] at h
  split at h
  · cases h
  · split at h
    · cases h
    · exact sameForm_of_map_write h

theorem sameForm_of_save {after : Store} (h : σ.save s = .ok (t, after)) : σ.SameForm after := by
  simp only [save, bind, Except.bind] at h
  split at h
  · cases h
  · split at h
    · exact sameForm_of_map_write h
    · cases h

/-- A session that the store gives back is found in its place after it was written. -/
theorem stores_of_write {after : Store} (h : σ.write s = .ok after) (hs : σ.Holds s) :
    σ.Stores s after := by
  refine ⟨sameForm_of_write h, fun j => ?_⟩
  cases σ with
  | memory sessions =>
    cases h
    exact Register.get?_set sessions s.id j s
  | files records =>
    obtain ⟨text, htext, hback⟩ := hs
    cases hpath : filePath s.id.display with
    | error e => simp [write, htext, hpath, bind, Except.bind] at h
    | ok path =>
      obtain rfl : Store.files (records.set path text) = after := by
        simpa [write, htext, hpath, bind, Except.bind] using h
      cases hj : filePath j.display with
      | error e => simp [find?, fileText?, samePlace, hj, hpath, Except.toOption]
      | ok other =>
        by_cases heq : other = path <;>
          simp [find?, fileText?, samePlace, hj, hpath, Except.toOption, Dict.get?_set, heq, hback]

/-- Where a session is found another one can be written. -/
theorem exists_write (hfind : σ.find? s.id = some t) (hs : σ.Holds s) :
    ∃ after, σ.write s = .ok after := by
  cases σ with
  | memory _ => exact ⟨_, rfl⟩
  | files records =>
    obtain ⟨text, htext, -⟩ := hs
    cases hpath : filePath s.id.display with
    | error e => simp [find?, fileText?, hpath, Except.toOption] at hfind
    | ok path =>
      exact ⟨.files (records.set path text), by simp [write, htext, hpath, bind, Except.bind]⟩

/-- A new session is stored only where there was none, at version zero. -/
theorem create_cases (hs : σ.Takes s) :
    (∃ e, σ.create s = .error e) ∨
      σ.find? s.id = none ∧
        ∃ after, σ.create s = .ok (s.atVersion 0, after) ∧ σ.Stores (s.atVersion 0) after := by
  cases hex : σ.existence s.id with
  | error e => exact .inl ⟨e, by simp [create, hex, bind, Except.bind]⟩
  | ok known =>
    cases known with
    | true => exact .inl ⟨.sessionExists s.id, by simp [create, hex, bind, Except.bind]⟩
    | false =>
      have hcreate :
          σ.create s = (σ.write (s.atVersion 0)).map fun after => (s.atVersion 0, after) := by
        simp only [create, hex, bind, Except.bind]
        rfl
      rw [hcreate]
      cases hwrite : σ.write (s.atVersion 0) with
      | error e => exact .inl ⟨e, rfl⟩
      | ok after =>
        exact .inr ⟨find?_of_existence hex, after, rfl, stores_of_write hwrite (hs 0)⟩

/-- A session whose version is the stored one is stored one version later. -/
theorem save_of_version_eq {n : Nat} (h : σ.find? s.id = some t) (ht : t.version = .int n)
    (hv : s.version = .int n) (hs : σ.Takes s) :
    ∃ after, σ.save s = .ok (s.atVersion (n + 1), after) ∧
      σ.Stores (s.atVersion (n + 1)) after := by
  obtain ⟨after, hwrite⟩ := exists_write (s := s.atVersion (n + 1)) h (hs (n + 1))
  refine ⟨after, ?_, stores_of_write hwrite (hs (n + 1))⟩
  have heq : t.version.equal s.version = true := by rw [ht, hv]; simp [Value.equal_int]
  have hnext : { s with version := t.version.shifted 1 } = s.atVersion (n + 1) := by rw [ht]; rfl
  simp only [save, load_of_find? h, bind, Except.bind, heq, if_true, hnext, hwrite, Except.map]

/-- A session that is saved is stored at some version, if the stored versions are counted. -/
theorem stores_of_save {after : Store} (hs : σ.Takes s)
    (hcount : ∀ t, σ.find? s.id = some t → ∃ n : Nat, t.version = .int n)
    (h : σ.save s = .ok (t, after)) : ∃ n : Nat, t = s.atVersion n ∧ σ.Stores t after := by
  cases hfind : σ.find? s.id with
  | none => simp [save, load, hfind, bind, Except.bind] at h
  | some current =>
    obtain ⟨n, hn⟩ := hcount current hfind
    obtain ⟨after', hwrite⟩ := exists_write (s := s.atVersion (n + 1)) hfind (hs (n + 1))
    have hnext : { s with version := current.version.shifted 1 } = s.atVersion (n + 1) := by
      rw [hn]; rfl
    simp only [save, load_of_find? hfind, bind, Except.bind, hnext, hwrite, Except.map] at h
    split at h
    · cases h
      exact ⟨n + 1, rfl, stores_of_write hwrite (hs (n + 1))⟩
    · cases h

/-- A session whose version is not the stored one is refused. -/
theorem save_of_version_ne (h : σ.find? s.id = some t) (hv : t.version.equal s.version = false) :
    σ.save s = .error (.staleSession s.id s.version) := by
  simp [save, load_of_find? h, bind, Except.bind, hv]

end Store

end Questionnaire
