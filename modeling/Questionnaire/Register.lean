import Questionnaire.Value.Text
import Questionnaire.Value.Agreement

/-!
# Registers

A register holds values under ids: answers under the ids of questions, loop plans under those of
batteries. Ids that agree are one id here, and a value stands under the id that was there first.
Ids are nearly always texts, and what is kept under texts is a dictionary; the rest stands beside it
in the order in which it came. Where a register is shown under the texts of its ids and two of them
read the same, the later one counts; so a text that comes after an id that reads like it stands
behind that id.

`get?_set` says what a look-up finds after a write, and `get?_erase` what it finds after a removal.
-/

namespace Questionnaire

/-- Values under ids. A text stands among `others` only behind an id that reads the same. -/
structure Register (α : Type) where
  texts : Dict α
  others : List (Id × α)
  deriving DecidableEq

namespace Register

variable {α β : Type}

/-! ## Entries under what is not a text -/

/-- The value under an id. -/
def find? (k : Id) (l : List (Id × α)) : Option α := (l.find? fun e => e.1.agrees k).map Prod.snd

/-- The entries with a value put under an id: in place of an earlier one, or at the end. -/
def put (k : Id) (v : α) : List (Id × α) → List (Id × α)
  | [] => [(k, v)]
  | (a, w) :: r => if a.agrees k then (a, v) :: r else (a, w) :: put k v r

theorem find?_put (k j : Id) (v : α) :
    ∀ l : List (Id × α), find? j (put k v l) = if j.agrees k then some v else find? j l
  | [] => by
    rw [Value.agrees_comm]
    by_cases h : k.agrees j <;> simp [put, find?, h]
  | (a, w) :: r => by
    have ih := find?_put k j v r
    simp only [find?] at ih
    by_cases hk : a.agrees k
    · simp only [put, if_pos hk, find?, List.find?_cons, Value.agrees_comm j k,
        Value.agrees_congr hk j]
      cases k.agrees j <;> simp
    · simp only [put, if_neg hk, find?, List.find?_cons]
      cases hj : a.agrees j with
      | false => simpa using ih
      | true =>
        have : j.agrees k = false := by
          rw [Bool.eq_false_iff]
          exact fun h => hk (Value.agrees_trans hj h)
        simp [this]

theorem find?_filter (k j : Id) :
    ∀ l : List (Id × α),
      find? j (l.filter fun e => !e.1.agrees k) = if j.agrees k then none else find? j l
  | [] => by simp [find?]
  | (a, w) :: r => by
    have ih := find?_filter k j r
    simp only [find?] at ih
    cases hk : a.agrees k with
    | true =>
      simp only [List.filter_cons, hk, Bool.not_true, Bool.false_eq_true, if_false, find?,
        List.find?_cons, Value.agrees_comm j k, Value.agrees_congr hk j, ih]
      cases k.agrees j <;> simp
    | false =>
      simp only [List.filter_cons, hk, Bool.not_false, if_true, find?, List.find?_cons]
      cases hj : a.agrees j with
      | false => simpa using ih
      | true =>
        have : j.agrees k = false := by
          rw [Bool.eq_false_iff]
          intro h
          rw [Value.agrees_trans hj h] at hk
          exact Bool.noConfusion hk
        simp [this]

/-! ## Registers -/

/-- The register without entries. -/
def empty : Register α := ⟨∅, []⟩

instance : EmptyCollection (Register α) := ⟨empty⟩
instance : Inhabited (Register α) := ⟨empty⟩

/-- The register whose entries stand under texts. -/
def ofTexts (d : Dict α) : Register α := ⟨d, []⟩

/-- The value under an id, if there is one. -/
def get? (r : Register α) : Id → Option α
  | .text s => (r.texts.get? s).or (find? (.text s) r.others)
  | k => find? k r.others

/-- Whether there are no entries. -/
def isEmpty (r : Register α) : Bool := r.texts.entries.isEmpty && r.others.isEmpty

/-- Whether there is a value under the id. -/
def contains (r : Register α) (k : Id) : Bool := (r.get? k).isSome

/-- Whether a text belongs behind an id that reads the same. -/
def isBehind (r : Register α) (s : String) : Bool :=
  !r.texts.contains s && r.others.any fun e => e.1.display == s

/-- The register with a value under an id, in place of an earlier one. -/
def set (r : Register α) (k : Id) (v : α) : Register α :=
  match k with
  | .text s =>
    if r.isBehind s then { r with others := put (.text s) v r.others }
    else { r with texts := r.texts.set s v }
  | k => { r with others := put k v r.others }

/-- The register without an id. -/
def erase (r : Register α) (k : Id) : Register α :=
  let others := r.others.filter fun e => !e.1.agrees k
  match k with
  | .text s => ⟨r.texts.erase s, others⟩
  | _ => ⟨r.texts, others⟩

/-- The register of a list of entries; of two values under ids that agree the later counts. -/
def ofList (l : List (Id × α)) : Register α := l.foldl (fun r e => r.set e.1 e.2) empty

/-- The entries, those under texts first. -/
def entries (r : Register α) : List (Id × α) :=
  (r.texts.entries.map fun e => (Value.text e.1, e.2)) ++ r.others

/-- The register with every value changed by a function. -/
def map (f : α → β) (r : Register α) : Register β :=
  ⟨r.texts.map fun _ v => f v, r.others.map fun e => (e.1, f e.2)⟩

/-- The entries under the texts of their ids; of two ids with one text the later counts. -/
def toDict (r : Register α) : Dict α :=
  r.others.foldl (fun d e => d.set e.1.display e.2) r.texts

@[simp] theorem get?_empty (k : Id) : (∅ : Register α).get? k = none := by
  cases k <;> rfl

theorem get?_text (r : Register α) (s : String) :
    r.get? (.text s) = (r.texts.get? s).or (find? (.text s) r.others) := rfl

theorem get?_of_not_isText (r : Register α) {k : Id} (h : k.isText = false) :
    r.get? k = find? k r.others := by
  cases k with
  | text s => simp [Value.isText] at h
  | _ => rfl

theorem set_of_not_isText (r : Register α) {k : Id} (h : k.isText = false) (v : α) :
    r.set k v = { r with others := put k v r.others } := by
  cases k with
  | text s => simp [Value.isText] at h
  | _ => rfl

theorem texts_erase_of_not_isText (r : Register α) {k : Id} (h : k.isText = false) :
    (r.erase k).texts = r.texts := by
  cases k with
  | text s => simp [Value.isText] at h
  | _ => rfl

theorem others_erase (r : Register α) (k : Id) :
    (r.erase k).others = r.others.filter fun e => !e.1.agrees k := by
  cases k <;> rfl

/-- A look-up after a write finds the new value under every id that agrees with the written one and
nothing else new. -/
theorem get?_set (r : Register α) (k j : Id) (v : α) :
    (r.set k v).get? j = if j.agrees k then some v else r.get? j := by
  cases hk : k.isText with
  | false =>
    rw [set_of_not_isText r hk]
    cases hj : j.isText with
    | false => rw [get?_of_not_isText _ hj, get?_of_not_isText _ hj, find?_put]
    | true =>
      have hne : j.agrees k = false := Value.agrees_of_isText_ne (by rw [hj, hk]; decide)
      cases j with
      | text t => simp [get?_text, find?_put, hne]
      | _ => simp [Value.isText] at hj
  | true =>
    cases k with
    | text s =>
      simp only [set]
      cases hj : j.isText with
      | false =>
        have hne : j.agrees (.text s) = false := Value.agrees_of_isText_ne (by rw [hj, hk]; decide)
        split <;> simp [get?_of_not_isText _ hj, find?_put, hne]
      | true =>
        cases j with
        | text t =>
          split
          · next h =>
            have hnone : r.texts.get? s = none := by
              simp only [isBehind, Bool.and_eq_true, Dict.contains] at h
              simpa using h.1
            simp only [get?_text, find?_put, Value.text_agrees_text]
            by_cases hts : t = s
            · subst hts; simp [hnone]
            · simp [hts]
          · simp only [get?_text, Dict.get?_set, Value.text_agrees_text]
            by_cases hts : t = s <;> simp [hts]
        | _ => simp [Value.isText] at hj
    | _ => simp [Value.isText] at hk

/-- A look-up after a removal finds nothing under ids that agree with the removed one and all else
as before. -/
theorem get?_erase (r : Register α) (k j : Id) :
    (r.erase k).get? j = if j.agrees k then none else r.get? j := by
  cases hj : j.isText with
  | false =>
    rw [get?_of_not_isText _ hj, get?_of_not_isText _ hj, others_erase, find?_filter]
  | true =>
    cases j with
    | text t =>
      cases hk : k.isText with
      | false =>
        have hne : (Value.text t).agrees k = false :=
          Value.agrees_of_isText_ne (by rw [hj, hk]; decide)
        simp [get?_text, texts_erase_of_not_isText r hk, others_erase, find?_filter, hne]
      | true =>
        cases k with
        | text s =>
          simp only [erase, get?_text, Dict.get?_erase, find?_filter, Value.text_agrees_text]
          by_cases hts : t = s <;> simp [hts]
        | _ => simp [Value.isText] at hk
    | _ => simp [Value.isText] at hj

/-- Look-ups under ids that agree find the same. -/
theorem get?_congr (r : Register α) {j k : Id} (h : j.agrees k = true) : r.get? j = r.get? k := by
  have hfind : find? j r.others = find? k r.others := by
    simp only [find?, Value.agrees_comm _ j, Value.agrees_comm _ k, Value.agrees_congr h]
  by_cases hjk : j.isText = k.isText
  · cases hj : j.isText with
    | false =>
      rw [get?_of_not_isText _ hj, get?_of_not_isText _ (hjk ▸ hj), hfind]
    | true =>
      cases j <;> cases k <;> simp_all [Value.isText, Value.text_agrees_text]
  · rw [Value.agrees_of_isText_ne hjk] at h
    exact Bool.noConfusion h

end Register

end Questionnaire
