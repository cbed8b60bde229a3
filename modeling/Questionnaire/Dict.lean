/-!
# Dictionaries

A dictionary holds values under texts: answers under question ids, loop plans under battery ids,
cached orders under cache keys. Its entries stand in increasing order of their keys, each key once,
so two dictionaries with the same contents are equal. `get?_set` says what a look-up finds after a
write, `get?_erase` what it finds after a removal, and `ext_get?` that the look-ups determine the
dictionary.
-/

namespace Questionnaire

/-- Entries under strictly increasing keys. -/
structure Dict (α : Type) where
  entries : List (String × α)
  sorted : entries.Pairwise fun a b => a.1 < b.1
  deriving DecidableEq

namespace Dict

variable {α β : Type}

/-! ## Operations on sorted entries -/

/-- The value under a key. -/
def lookup (k : String) : List (String × α) → Option α
  | [] => none
  | (a, v) :: r => if k = a then some v else lookup k r

/-- The entries with a value put under a key, at the key's place in the order. -/
def put (k : String) (v : α) : List (String × α) → List (String × α)
  | [] => [(k, v)]
  | (a, w) :: r =>
    if k = a then (k, v) :: r
    else if k < a then (k, v) :: (a, w) :: r
    else (a, w) :: put k v r

theorem mem_put {k : String} {v : α} {e : String × α} :
    ∀ {l : List (String × α)}, e ∈ put k v l → e = (k, v) ∨ e ∈ l
  | [], h => by simpa [put] using h
  | (a, w) :: r, h => by
    unfold put at h
    split at h
    · rcases List.mem_cons.1 h with h | h
      · exact .inl h
      · exact .inr (.tail _ h)
    · split at h
      · rcases List.mem_cons.1 h with h | h
        · exact .inl h
        · exact .inr h
      · rcases List.mem_cons.1 h with h | h
        · exact .inr (h ▸ .head _)
        · exact (mem_put h).imp_right (.tail _)

theorem lt_of_not_lt {a b : String} (hne : a ≠ b) (h : ¬a < b) : b < a :=
  String.not_le.1 fun hle => hne (String.le_antisymm hle (String.not_lt.1 h))

theorem sorted_put {k : String} {v : α} :
    ∀ {l : List (String × α)}, l.Pairwise (fun a b => a.1 < b.1) →
      (put k v l).Pairwise (fun a b => a.1 < b.1)
  | [], _ => by simp [put]
  | (a, w) :: r, h => by
    obtain ⟨ha, hr⟩ := List.pairwise_cons.1 h
    unfold put
    split
    · next hk => subst hk; exact List.pairwise_cons.2 ⟨ha, hr⟩
    · next hk =>
      split
      · next hlt =>
        refine List.pairwise_cons.2 ⟨fun e he => ?_, h⟩
        rcases List.mem_cons.1 he with rfl | he
        · exact hlt
        · exact String.lt_trans hlt (ha e he)
      · next hlt =>
        refine List.pairwise_cons.2 ⟨fun e he => ?_, sorted_put hr⟩
        rcases mem_put he with rfl | he
        · exact lt_of_not_lt hk hlt
        · exact ha e he

theorem lookup_put (k j : String) (v : α) :
    ∀ l : List (String × α), lookup j (put k v l) = if j = k then some v else lookup j l
  | [] => by simp [put, lookup]
  | (a, w) :: r => by
    unfold put
    split
    · next hk => subst hk; by_cases hj : j = k <;> simp [lookup, hj]
    · split
      · by_cases hj : j = k <;> simp [lookup, hj]
      · next hk _ =>
        simp only [lookup, lookup_put k j v r]
        by_cases hj : j = k
        · subst hj; simp [hk]
        · simp [hj]

/-! ## Dictionaries -/

/-- The dictionary without entries. -/
def empty : Dict α := ⟨[], .nil⟩

instance : EmptyCollection (Dict α) := ⟨empty⟩
instance : Inhabited (Dict α) := ⟨empty⟩

/-- The value under a key, if there is one. -/
def get? (d : Dict α) (k : String) : Option α := lookup k d.entries

/-- Whether there is a value under the key. -/
def contains (d : Dict α) (k : String) : Bool := (d.get? k).isSome

/-- The dictionary with a value under a key, in place of an earlier one. -/
def set (d : Dict α) (k : String) (v : α) : Dict α := ⟨put k v d.entries, sorted_put d.sorted⟩

/-- The dictionary without the key. -/
def erase (d : Dict α) (k : String) : Dict α :=
  ⟨d.entries.filter fun e => e.1 != k, d.sorted.filter _⟩

/-- The dictionary of a list of entries; of two values under one key the later counts. -/
def ofList (l : List (String × α)) : Dict α := l.foldl (fun d e => d.set e.1 e.2) empty

/-- The keys, in increasing order. -/
def keys (d : Dict α) : List String := d.entries.map (·.1)

/-- The dictionary with every value changed by a function of key and value. -/
def map (f : String → α → β) (d : Dict α) : Dict β :=
  ⟨d.entries.map fun e => (e.1, f e.1 e.2), by
    rw [List.pairwise_map]; exact d.sorted⟩

@[simp] theorem get?_empty (k : String) : (∅ : Dict α).get? k = none := rfl

/-- A look-up after a write finds the new value under the written key and nothing else new. -/
theorem get?_set (d : Dict α) (k j : String) (v : α) :
    (d.set k v).get? j = if j = k then some v else d.get? j :=
  lookup_put k j v d.entries

theorem lookup_filter_ne (k j : String) :
    ∀ l : List (String × α),
      lookup j (l.filter fun e => e.1 != k) = if j = k then none else lookup j l
  | [] => by simp [lookup]
  | (a, v) :: r => by
    by_cases ha : a = k
    · subst ha
      simp only [bne_self_eq_false, Bool.false_eq_true, not_false_eq_true, List.filter_cons_of_neg,
        lookup_filter_ne, lookup]
      split <;> simp_all
    · have hf : (a != k) = true := by simpa using ha
      simp only [List.filter_cons, hf, if_true, lookup, lookup_filter_ne k j r]
      by_cases hj : j = a
      · subst hj; simp [ha]
      · simp [hj]

/-- A look-up after a removal finds nothing under the removed key and all else as before. -/
theorem get?_erase (d : Dict α) (k j : String) :
    (d.erase k).get? j = if j = k then none else d.get? j :=
  lookup_filter_ne k j d.entries

theorem lookup_eq_none_of_lt {k : String} :
    ∀ {l : List (String × α)}, (∀ e ∈ l, k < e.1) → lookup k l = none
  | [], _ => rfl
  | (a, v) :: r, h => by
    have hne : k ≠ a := fun e => String.lt_irrefl a (e ▸ h (a, v) (.head _))
    simp only [lookup, if_neg hne]
    exact lookup_eq_none_of_lt fun e he => h e (.tail _ he)

theorem eq_of_lookup : ∀ {l m : List (String × α)}, l.Pairwise (fun a b => a.1 < b.1) →
    m.Pairwise (fun a b => a.1 < b.1) → (∀ k, lookup k l = lookup k m) → l = m
  | [], [], _, _, _ => rfl
  | [], (b, w) :: _, _, _, h => by simpa [lookup] using h b
  | (a, v) :: _, [], _, _, h => by simpa [lookup] using h a
  | (a, v) :: r, (b, w) :: s, hl, hm, h => by
    obtain ⟨ha, hr⟩ := List.pairwise_cons.1 hl
    obtain ⟨hb, hs⟩ := List.pairwise_cons.1 hm
    by_cases hab : a = b
    · subst hab
      have hv : v = w := by simpa [lookup] using h a
      subst hv
      refine congrArg _ (eq_of_lookup hr hs fun k => ?_)
      by_cases hk : k = a
      · subst hk; rw [lookup_eq_none_of_lt ha, lookup_eq_none_of_lt hb]
      · simpa [lookup, hk] using h k
    · by_cases hlt : a < b
      · have := h a
        rw [lookup_eq_none_of_lt (l := (b, w) :: s)] at this
        · simp [lookup] at this
        · intro e he
          rcases List.mem_cons.1 he with rfl | he
          · exact hlt
          · exact String.lt_trans hlt (hb e he)
      · have hlt := lt_of_not_lt hab hlt
        have := h b
        rw [lookup_eq_none_of_lt (l := (a, v) :: r)] at this
        · simp [lookup] at this
        · intro e he
          rcases List.mem_cons.1 he with rfl | he
          · exact hlt
          · exact String.lt_trans hlt (ha e he)

/-- The look-ups determine the dictionary. -/
theorem ext_get? {d e : Dict α} (h : ∀ k, d.get? k = e.get? k) : d = e := by
  cases d with | mk l hl => cases e with | mk m hm =>
    have : l = m := eq_of_lookup hl hm h
    subst this; rfl

/-- A write of what is there already changes nothing. -/
theorem set_of_get? {d : Dict α} {k : String} {v : α} (h : d.get? k = some v) : d.set k v = d := by
  refine ext_get? fun j => ?_
  rw [get?_set]
  split
  · next hj => rw [hj, h]
  · rfl

end Dict

end Questionnaire
