import Questionnaire.Document.Reading

/-!
# Reading what was written

A document is read back member by member. A member of a document that was put together from a list
of members is the last of its name there (`lookup_ofMembers`), so reading a member gives what was
written under its key (`required_ofMembers`, `optional_ofMembers`). A list is read back if its
elements are (`asList_ofList`), a dictionary if its values are (`asDictOf_ofDict`), and what is
named by its code if no two alternatives share one (`oneOf_code`).

A register stands in a document under the texts of its ids, so what is read back is the register as
it was shown (`Register.shown`): the register itself if all its ids are texts
(`Register.shown_of_others`).
-/

namespace Questionnaire

/-! ## Dictionaries from entries -/

namespace Dict

variable {α β : Type}

theorem lookup_append (k : String) (l m : List (String × α)) :
    lookup k (l ++ m) = (lookup k l).or (lookup k m) := by
  induction l with
  | nil => rfl
  | cons e r ih =>
    simp only [List.cons_append, lookup, ih]
    split <;> rfl

/-- Of a list of entries put into a dictionary the last one under a key counts. -/
theorem get?_foldl_set (k : String) :
    ∀ (l : List (String × α)) (d : Dict α),
      (l.foldl (fun d e => d.set e.1 e.2) d).get? k = (lookup k l.reverse).or (d.get? k)
  | [], d => by simp [lookup]
  | (a, v) :: r, d => by
    rw [List.foldl_cons, get?_foldl_set k r, get?_set, List.reverse_cons, lookup_append]
    simp only [lookup]
    cases lookup k r.reverse with
    | some w => rfl
    | none => split <;> rfl

theorem get?_ofList (k : String) (l : List (String × α)) :
    (ofList l).get? k = lookup k l.reverse := by
  rw [ofList, get?_foldl_set]
  exact Option.or_none

/-- Under keys that differ, a look-up finds exactly the entries. -/
theorem lookup_eq_some_iff {k : String} {v : α} :
    ∀ {l : List (String × α)}, (l.map Prod.fst).Nodup → (lookup k l = some v ↔ (k, v) ∈ l)
  | [], _ => by simp [lookup]
  | (a, w) :: r, h => by
    obtain ⟨ha, hr⟩ := List.nodup_cons.1 h
    simp only [lookup, List.mem_cons, Prod.mk.injEq]
    split
    · next hk =>
      subst hk
      have hnot : (k, v) ∉ r := fun hmem => ha (List.mem_map.2 ⟨(k, v), hmem, rfl⟩)
      simp [hnot, eq_comm]
    · next hk => simp [hk, lookup_eq_some_iff hr]

/-- The order of entries under keys that differ does not matter. -/
theorem lookup_reverse (k : String) {l : List (String × α)} (h : (l.map Prod.fst).Nodup) :
    lookup k l.reverse = lookup k l := by
  have hrev : (l.reverse.map Prod.fst).Nodup := by
    rw [List.map_reverse]
    exact (List.reverse_perm _).nodup_iff.2 h
  refine Option.ext fun v => ?_
  rw [lookup_eq_some_iff hrev, lookup_eq_some_iff h, List.mem_reverse]

theorem nodup_keys (d : Dict α) : (d.entries.map Prod.fst).Nodup := by
  rw [List.Nodup, List.pairwise_map]
  refine d.sorted.imp fun {a b} (hlt : a.1 < b.1) (heq : a.1 = b.1) => ?_
  exact String.lt_irrefl b.1 (heq ▸ hlt)

/-- A dictionary is put together from its entries. -/
@[simp] theorem ofList_entries (d : Dict α) : ofList d.entries = d := by
  refine ext_get? fun k => ?_
  rw [get?_ofList, lookup_reverse k d.nodup_keys, get?]

theorem lookup_map (f : String → α → β) (k : String) :
    ∀ l : List (String × α),
      lookup k (l.map fun e => (e.1, f e.1 e.2)) = (lookup k l).map (f k)
  | [] => rfl
  | (a, v) :: r => by
    simp only [List.map_cons, lookup, lookup_map f k r]
    split
    · next hk => rw [hk]; rfl
    · rfl

theorem get?_map (f : String → α → β) (d : Dict α) (k : String) :
    (d.map f).get? k = (d.get? k).map (f k) :=
  lookup_map f k d.entries

theorem map_set (f : String → α → β) (d : Dict α) (k : String) (v : α) :
    (d.set k v).map f = (d.map f).set k (f k v) := by
  refine ext_get? fun j => ?_
  simp only [get?_map, get?_set]
  split
  · next hj => rw [hj]; rfl
  · rfl

end Dict

/-! ## Registers under texts -/

namespace Register

variable {α β : Type}

/-- The register as a document shows it: under the texts of its ids. -/
def shown (r : Register α) : Register α := .ofTexts r.toDict

/-- A register under texts is shown as it is. -/
theorem shown_of_others {r : Register α} (h : r.others = []) : r.shown = r := by
  cases r with
  | mk texts others =>
    obtain rfl : others = [] := h
    rfl

@[simp] theorem toDict_shown (r : Register α) : r.shown.toDict = r.toDict := rfl

theorem get?_map (f : α → β) (r : Register α) (k : Id) : (r.map f).get? k = (r.get? k).map f := by
  have hfind : find? k (r.map f).others = (find? k r.others).map f := by
    simp only [map, find?, List.find?_map, Option.map_map]
    rfl
  cases k with
  | text s =>
    rw [get?_text, get?_text, hfind]
    show ((r.texts.map fun _ v => f v).get? s).or _ = _
    rw [Dict.get?_map]
    cases r.texts.get? s <;> rfl
  | _ => exact hfind

/-- What is kept is changed before it is shown or after. -/
theorem toDict_map (f : α → β) (r : Register α) :
    (r.map f).toDict = r.toDict.map fun _ v => f v := by
  have hfold : ∀ (l : List (Id × α)) (d : Dict α),
      (l.map fun e => (e.1, f e.2)).foldl (fun d e => d.set e.1.display e.2)
          (d.map fun _ v => f v) =
        (l.foldl (fun d e => d.set e.1.display e.2) d).map fun _ v => f v := by
    intro l
    induction l with
    | nil => exact fun _ => rfl
    | cons e r ih =>
      intro d
      rw [List.map_cons, List.foldl_cons, List.foldl_cons, ← ih, Dict.map_set]
  exact hfold r.others r.texts

end Register

/-! ## Parts of documents -/

namespace Document

variable {α β : Type} {read : Value → Reading β} {f : α → Value} {g : α → β}

@[simp] theorem ok_bind {ε : Type} (a : α) (f : α → Except ε β) : (Except.ok a >>= f) = f a := rfl

/-- What is looked up in a document is the last member of the name. -/
theorem lookup_ofMembers (k : String) (members : List (String × Value)) :
    Dict.lookup k (Dict.ofList members).entries = Dict.lookup k members.reverse :=
  Dict.get?_ofList k members

@[simp] theorem required_ofMembers (k : String) (members : List (String × Value)) :
    required (ofMembers members) k =
      match Dict.lookup k members.reverse with
      | some v => .ok v
      | none => .error (.missing k) := by
  cases h : Dict.lookup k members.reverse <;>
    simp only [required, ofMembers, Value.ofEntries, lookup_ofMembers, h]

@[simp] theorem optional_ofMembers (k : String) (members : List (String × Value))
    (default : Value) :
    optional (ofMembers members) k default =
      .ok ((Dict.lookup k members.reverse).getD default) := by
  simp only [optional, ofMembers, Value.ofEntries, lookup_ofMembers]

theorem mapM_map {γ : Type} {read : γ → Reading β} {f : α → γ} :
    ∀ {l : List α}, (∀ a ∈ l, read (f a) = .ok (g a)) → (l.map f).mapM read = .ok (l.map g)
  | [], _ => rfl
  | a :: r, h => by
    rw [List.map_cons, List.mapM_cons, h a (.head _), mapM_map fun b hb => h b (.tail _ hb)]
    rfl

/-- A list is read back element by element. -/
theorem asList_ofList {l : List α} (h : ∀ a ∈ l, read (f a) = .ok (g a)) :
    asList read (ofList f l) = .ok (l.map g) :=
  mapM_map h

/-- A list whose elements are read back is read back. -/
theorem asList_ofList_self {read : Value → Reading α} (h : ∀ a, read (f a) = .ok a)
    (l : List α) : asList read (ofList f l) = .ok l := by
  rw [asList_ofList (g := id) fun a _ => h a, List.map_id]

/-- Elements with the same documents make the same document. -/
theorem ofList_map {g : α → α} {l : List α} (h : ∀ a ∈ l, f (g a) = f a) :
    ofList f (l.map g) = ofList f l := by
  rw [ofList, List.map_map]
  exact congrArg Value.list (List.map_congr_left h)

/-- A dictionary is read back value by value. -/
theorem asDictOf_ofDict {d : Dict α} (h : ∀ e ∈ d.entries, read (f e.2) = .ok (g e.2)) :
    asDictOf read (.ofDict (d.map fun _ v => f v)) = .ok (d.map fun _ v => g v) := by
  have hread : (d.map fun _ v => f v).entries.mapM
      (fun e => (read e.2).map fun b => (e.1, b)) = .ok (d.map fun _ v => g v).entries := by
    refine mapM_map fun e he => ?_
    rw [h e he]
    rfl
  simp only [asDictOf, Value.ofDict, hread]
  exact congrArg Except.ok (Dict.ofList_entries _)

/-- A register is read back as it was shown. -/
theorem asRegister_ofRegister (r : Register Value) : asRegister (ofRegister r) = .ok r.shown := by
  simp only [asRegister, ofRegister, Value.ofDict, Dict.ofList_entries, Register.shown]

/-- An alternative is read back from its code. -/
theorem oneOf_code {typeName : String} {ofCode? : String → Option α} {code : α → String}
    (h : ∀ a, ofCode? (code a) = some a) (a : α) :
    oneOf typeName ofCode? (.text (code a)) = .ok a := by
  simp only [oneOf, h]

end Document

end Questionnaire
