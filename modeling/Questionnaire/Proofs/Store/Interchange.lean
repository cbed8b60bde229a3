import Questionnaire.Proofs.Store.Records
import Questionnaire.Sample.BrandTracker

/-!
# Stores that can be exchanged

A store is used by calls that create, load and save sessions and ask whether there is one
(`Store.Call`). Whoever makes the calls cannot tell a store that keeps sessions as they are from one
that keeps records: from empty stores on, every call is answered alike, with the same session or the
same fault (`Store.replies_alike`), as long as ids name files and records can keep the sessions.

Both stores then show the same session under every id that names a file (`Store.Alike`). One call
keeps them alike and is answered alike (`Alike.call`), and the run is by induction on the calls. A
write is the only step at which the stores change, and there the argument is that an id names a file
of its own (`filePath_of_namesFile`, `samePlace_of_namesFile`) and that a record is read back
(`takes_of_isRepresentable`).
-/

namespace Questionnaire

namespace Store

/-! ## Calls -/

/-- What a store is asked to do. -/
inductive Call
  | create (s : Session)
  | load (id : Id)
  | save (s : Session)
  | existence (id : Id)

/-- How a store answers: with a session, or whether there is one, or with a fault. -/
inductive Reply
  | session (result : Except Fault Session)
  | existence (result : Except Fault Bool)
  deriving DecidableEq

/-- The answer to a write and the store after it; a write that fails changes nothing. -/
def written (σ : Store) : Except Fault (Session × Store) → Reply × Store
  | .ok (s, after) => (.session (.ok s), after)
  | .error e => (.session (.error e), σ)

/-- The answer to a call and the store after it. -/
def call (σ : Store) : Call → Reply × Store
  | .create s => σ.written (σ.create s)
  | .load id => (.session (σ.load id), σ)
  | .save s => σ.written (σ.save s)
  | .existence id => (.existence (σ.existence id), σ)

/-- The answers to calls that are made one after the other. -/
def replies (σ : Store) : List Call → List Reply
  | [] => []
  | c :: r => (σ.call c).1 :: (σ.call c).2.replies r

/-! ## Ids that name files -/

/-- Whether an id is the name of a file in the store's own directory: a text without a slash and
without the character that no name has, and not too long. -/
def namesFile : Id → Bool
  | .text name =>
    !name.toList.contains '/' && !name.toList.contains '\x00' &&
      decide ((name ++ ".json").utf8ByteSize ≤ nameLimit)
  | _ => false

/-- A call with ids that name files and with sessions that records can keep. -/
def Call.IsFit : Call → Prop
  | .create s | .save s => namesFile s.id = true ∧ s.IsRepresentable
  | .load id | .existence id => namesFile id = true

theorem namesFile_text {id : Id} (h : namesFile id = true) : ∃ name, id = .text name := by
  cases id with
  | text name => exact ⟨name, rfl⟩
  | _ => cases h

theorem pathParts_of_namesFile {name : String} (h : namesFile (.text name) = true) :
    pathParts name = [name ++ ".json"] := by
  simp only [namesFile, Bool.and_eq_true, Bool.not_eq_true', List.contains_eq_mem,
    decide_eq_false_iff_not] at h
  have hslash : '/' ∉ (name ++ ".json").toList := by
    rw [String.toList_append, List.mem_append]
    exact fun hmem => hmem.elim h.1.1 (by decide)
  have hlength : 5 ≤ (name ++ ".json").toList.length := by
    rw [String.toList_append, List.length_append]
    exact Nat.le_add_left 5 _
  have hempty : name ++ ".json" ≠ "" := fun heq => by rw [heq] at hlength; simp at hlength
  have hdot : name ++ ".json" ≠ "." := fun heq => by rw [heq] at hlength; simp at hlength
  rw [pathParts, List.splitOn_eq_singleton hslash]
  simp [hempty, hdot]

/-- An id that names a file names one in the store's own directory. -/
theorem filePath_of_namesFile {name : String} (h : namesFile (.text name) = true) :
    filePath name = .ok (name ++ ".json") := by
  have hparts := pathParts_of_namesFile h
  simp only [namesFile, Bool.and_eq_true, Bool.not_eq_true', decide_eq_true_eq] at h
  obtain ⟨⟨hslash, hnul⟩, hsize⟩ := h
  have hname : ¬nameLimit < (name ++ ".json").utf8ByteSize := by omega
  have hpath : ¬pathLimit < (name ++ ".json").utf8ByteSize := by
    simp only [nameLimit, pathLimit] at hsize ⊢
    omega
  have hstart : name.startsWith "/" = false := by
    rw [String.startsWith_string_eq_false_iff]
    intro hprefix
    have hmem : '/' ∈ name.toList := hprefix.subset (List.mem_singleton_self '/')
    rw [← List.contains_iff_mem, hslash] at hmem
    cases hmem
  have hlong : ([name ++ ".json"].find? (· != upward)).any
      (fun part => decide (nameLimit < part.utf8ByteSize)) = false := by
    rw [Option.any_eq_false]
    intro part hpart
    obtain rfl := List.mem_singleton.1 (List.mem_of_find?_eq_some hpart)
    simpa using hname
  simp only [filePath, hparts, hnul, hstart, hlong, String.intercalate_singleton, if_neg hpath]
  rfl

/-- Whatever the store, different ids that name files lead to different places. -/
theorem samePlace_of_namesFile (σ : Store) {i j : Id} (hi : namesFile i = true)
    (hj : namesFile j = true) : σ.samePlace i j = decide (i = j) := by
  obtain ⟨a, rfl⟩ := namesFile_text hi
  obtain ⟨b, rfl⟩ := namesFile_text hj
  cases σ with
  | memory _ =>
    rw [samePlace, Value.text_agrees_text, Bool.eq_iff_iff]
    simp
  | files _ =>
    simp only [samePlace, Value.display, filePath_of_namesFile hi, filePath_of_namesFile hj,
      Except.toOption, Option.some.injEq, String.append_left_inj, Value.text.injEq]

theorem idFault?_of_namesFile (σ : Store) {id : Id} (h : namesFile id = true) :
    σ.idFault? id = none := by
  obtain ⟨name, rfl⟩ := namesFile_text h
  cases σ with
  | memory _ => rfl
  | files _ => simp only [idFault?, Value.display, filePath_of_namesFile h]

theorem existence_of_namesFile (σ : Store) {id : Id} (h : namesFile id = true) :
    σ.existence id = .ok (σ.exists? id) := by
  rw [existence, idFault?_of_namesFile σ h]

theorem load_of_namesFile (σ : Store) {id : Id} (h : namesFile id = true) :
    σ.load id = match σ.find? id with
      | some s => .ok s
      | none => .error (.sessionNotFound id) := by
  rw [load, idFault?_of_namesFile σ h]
  rfl

theorem create_of_namesFile (σ : Store) {s : Session} (h : namesFile s.id = true) :
    σ.create s =
      if σ.exists? s.id then .error (.sessionExists s.id)
      else (σ.write (s.atVersion 0)).map fun after => (s.atVersion 0, after) := by
  rw [create, existence_of_namesFile σ h]
  rfl

theorem save_of_namesFile (σ : Store) {s : Session} (h : namesFile s.id = true) :
    σ.save s = match σ.find? s.id with
      | none => .error (.sessionNotFound s.id)
      | some t =>
        if t.version.equal s.version then
          (σ.write { s with version := t.version.shifted 1 }).map fun after =>
            ({ s with version := t.version.shifted 1 }, after)
        else .error (.staleSession s.id s.version) := by
  rw [save, load_of_namesFile σ h]
  cases σ.find? s.id <;> rfl

/-! ## Stores that are alike -/

/-- Every file in a store of records that an id names can be read. -/
def IsLegible (σ : Store) : Prop :=
  ∀ id, namesFile id = true → σ.exists? id = (σ.find? id).isSome

/-- Two stores that show the same session under every id that names a file, at a version that was
counted. -/
structure Alike (σ τ : Store) : Prop where
  find : ∀ id, namesFile id = true → σ.find? id = τ.find? id
  version : ∀ id s, namesFile id = true → σ.find? id = some s → ∃ n : Nat, s.version = .int n
  left : σ.IsLegible
  right : τ.IsLegible

variable {σ τ after : Store} {s : Session} {id : Id}

/-- A store that keeps sessions as they are has nothing to read. -/
theorem isLegible_memory (sessions : Register Session) : IsLegible (.memory sessions) :=
  fun _ _ => rfl

/-- Where an id names a file, a session that a record can keep is written to it. -/
theorem write_files {records : Dict String} {name : String} (hname : s.id = .text name)
    (hid : namesFile s.id = true) {text : String} (htext : s.record = .ok text) :
    (Store.files records).write s = .ok (.files (records.set (name ++ ".json") text)) := by
  rw [hname] at hid
  simp only [write, htext, hname, Value.display, filePath_of_namesFile hid]
  rfl

theorem exists_write_of_namesFile (σ : Store) (hid : namesFile s.id = true) (hs : σ.Holds s) :
    ∃ after, σ.write s = .ok after := by
  cases σ with
  | memory sessions => exact ⟨_, rfl⟩
  | files records =>
    obtain ⟨text, htext, -⟩ := hs
    obtain ⟨name, hname⟩ := namesFile_text hid
    exact ⟨_, write_files hname hid htext⟩

/-- What is legible stays so when a session that the store gives back is written. -/
theorem IsLegible.write (hσ : σ.IsLegible) (hid : namesFile s.id = true) (hs : σ.Holds s)
    (h : σ.write s = .ok after) : after.IsLegible := by
  cases σ with
  | memory sessions =>
    cases h
    exact isLegible_memory _
  | files records =>
    intro j hj
    have hfind := (stores_of_write h hs).2 j
    rw [samePlace_of_namesFile _ hj hid] at hfind
    by_cases heq : j = s.id
    · rw [decide_eq_true heq, if_pos rfl] at hfind
      rw [hfind, exists?_of_find? hfind, Option.isSome_some]
    · -- The file of another id is as it was.
      rw [decide_eq_false heq, if_neg Bool.false_ne_true] at hfind
      rw [hfind, ← hσ j hj]
      obtain ⟨text, htext, -⟩ := hs
      obtain ⟨name, hname⟩ := namesFile_text hid
      obtain ⟨other, rfl⟩ := namesFile_text hj
      rw [write_files hname hid htext] at h
      cases h
      have hne : other ++ ".json" ≠ name ++ ".json" := fun he =>
        heq (by rw [hname, (String.append_left_inj _).1 he])
      simp only [exists?, fileText?, Value.display, filePath_of_namesFile hj, Except.toOption,
        Option.bind_some, Dict.get?_set, if_neg hne]

namespace Alike

theorem exists? (h : σ.Alike τ) (hid : namesFile id = true) : σ.exists? id = τ.exists? id := by
  rw [h.left id hid, h.right id hid, h.find id hid]

theorem existence (h : σ.Alike τ) (hid : namesFile id = true) :
    σ.existence id = τ.existence id := by
  rw [existence_of_namesFile σ hid, existence_of_namesFile τ hid, h.exists? hid]

theorem load (h : σ.Alike τ) (hid : namesFile id = true) : σ.load id = τ.load id := by
  rw [load_of_namesFile σ hid, load_of_namesFile τ hid, h.find id hid]

/-- Both stores can write a session that a record can keep, and are alike afterwards. -/
theorem write (h : σ.Alike τ) (hid : namesFile s.id = true) (hs : s.IsRepresentable) (n : Nat) :
    ∃ σ' τ', σ.write (s.atVersion n) = .ok σ' ∧ τ.write (s.atVersion n) = .ok τ' ∧ σ'.Alike τ' := by
  have hleft := takes_of_isRepresentable hs σ n
  have hright := takes_of_isRepresentable hs τ n
  obtain ⟨σ', hσ⟩ := exists_write_of_namesFile (s := s.atVersion n) σ hid hleft
  obtain ⟨τ', hτ⟩ := exists_write_of_namesFile (s := s.atVersion n) τ hid hright
  have hid' : namesFile (s.atVersion n).id = true := hid
  have hfind {υ υ' : Store} (hυ : υ.write (s.atVersion n) = .ok υ')
      (hholds : υ.Holds (s.atVersion n)) {j : Id} (hj : namesFile j = true) :
      υ'.find? j = if j = s.id then some (s.atVersion n) else υ.find? j := by
    rw [(stores_of_write hυ hholds).2 j, samePlace_of_namesFile υ hj hid']
    simp only [decide_eq_true_eq]
    rfl
  refine ⟨σ', τ', hσ, hτ, ⟨fun j hj => ?_, fun j t hj ht => ?_, ?_, ?_⟩⟩
  · rw [hfind hσ hleft hj, hfind hτ hright hj, h.find j hj]
  · rw [hfind hσ hleft hj] at ht
    split at ht
    · cases ht
      exact ⟨n, rfl⟩
    · exact h.version j t hj ht
  · exact h.left.write hid' hleft hσ
  · exact h.right.write hid' hright hτ

/-- A write is answered alike. -/
theorem written (h : σ.Alike τ) (hid : namesFile s.id = true) (hs : s.IsRepresentable) (n : Nat) :
    let answer (υ : Store) := υ.written ((υ.write (s.atVersion n)).map (s.atVersion n, ·))
    (answer σ).1 = (answer τ).1 ∧ (answer σ).2.Alike (answer τ).2 := by
  obtain ⟨σ', τ', hσ, hτ, hafter⟩ := h.write hid hs n
  simp only [hσ, hτ, Except.map, Store.written]
  exact ⟨trivial, hafter⟩

/-- A call is answered alike, and the stores are alike after it. -/
theorem call (h : σ.Alike τ) {c : Call} (hc : c.IsFit) :
    (σ.call c).1 = (τ.call c).1 ∧ (σ.call c).2.Alike (τ.call c).2 := by
  cases c with
  | create s =>
    obtain ⟨hid, hs⟩ := hc
    simp only [Store.call, create_of_namesFile _ hid, ← h.exists? hid]
    cases σ.exists? s.id with
    | true => exact ⟨rfl, h⟩
    | false => exact h.written hid hs 0
  | load id => exact ⟨congrArg Reply.session (h.load hc), h⟩
  | save s =>
    obtain ⟨hid, hs⟩ := hc
    simp only [Store.call, save_of_namesFile _ hid, ← h.find s.id hid]
    cases hfind : σ.find? s.id with
    | none => exact ⟨rfl, h⟩
    | some t =>
      obtain ⟨n, hn⟩ := h.version s.id t hid hfind
      have hnext : ({ s with version := t.version.shifted 1 } : Session) = s.atVersion (n + 1) := by
        rw [hn]
        rfl
      simp only [hnext]
      cases t.version.equal s.version with
      | true => exact h.written hid hs (n + 1)
      | false => exact ⟨rfl, h⟩
  | existence id => exact ⟨congrArg Reply.existence (h.existence hc), h⟩

/-- Calls one after the other are answered alike. -/
theorem replies (h : σ.Alike τ) {calls : List Call} (hcalls : ∀ c ∈ calls, c.IsFit) :
    σ.replies calls = τ.replies calls := by
  induction calls generalizing σ τ with
  | nil => rfl
  | cons c r ih =>
    obtain ⟨hreply, hafter⟩ := h.call (hcalls c (.head _))
    rw [Store.replies, Store.replies, hreply, ih hafter fun d hd => hcalls d (.tail _ hd)]

end Alike

end Store

namespace Sample.BrandTracker

end Sample.BrandTracker

end Questionnaire
