import Questionnaire.Session.Basic

/-!
# Writing over what is kept

A write under an id replaces what was written there before (`Register.set_set`), and a write of what
is there already changes nothing (`Register.set_of_get?`). Both are equations between registers and
not only between what is found in them: the entries stand where they stood. So a plan that is stored
twice, or stored as it was, leaves the session as it would be, or as it was
(`Session.setPlan_setPlan`, `Session.setPlan_of_plan?`).
-/

namespace Questionnaire

/-- Of two writes under one key the later counts. -/
theorem Dict.set_set {α : Type} (d : Dict α) (k : String) (v w : α) :
    (d.set k v).set k w = d.set k w := by
  refine ext_get? fun j => ?_
  simp only [get?_set]
  split <;> rfl

namespace Register

variable {α β : Type} {k : Id} {v w : α} {r : Register α} {s : String}

theorem put_put : ∀ l : List (Id × α), put k w (put k v l) = put k w l
  | [] => by simp [put, Value.agrees_self]
  | (a, u) :: l => by
    by_cases h : a.agrees k = true
    · simp [put, h]
    · simp [put, h, put_put l]

theorem put_of_find? : ∀ {l : List (Id × α)}, find? k l = some v → put k v l = l
  | [], h => by simp [find?] at h
  | (a, u) :: l, h => by
    rw [find?, List.find?_cons] at h
    by_cases ha : a.agrees k = true
    · rw [ha] at h
      cases h
      simp [put, ha]
    · rw [Bool.not_eq_true] at ha
      rw [ha] at h
      simp only [put, ha, Bool.false_eq_true, if_false]
      rw [put_of_find? h]

/-- A text stands behind the same ids after a write behind them. -/
theorem any_put_display : ∀ {l : List (Id × α)}, (l.any fun e => e.1.display == s) = true →
    ((put (.text s) v l).any fun e => e.1.display == s) = true
  | [], h => by simp at h
  | (a, u) :: l, h => by
    rw [List.any_cons, Bool.or_eq_true] at h
    unfold put
    split
    · simpa using h
    · rw [List.any_cons, Bool.or_eq_true]
      exact h.imp_right any_put_display

theorem isBehind_of_set (h : r.isBehind s = true) :
    ({ r with others := put (.text s) v r.others } : Register α).isBehind s = true := by
  rw [isBehind, Bool.and_eq_true] at h ⊢
  exact ⟨h.1, any_put_display h.2⟩

theorem not_isBehind_of_set : ({ r with texts := r.texts.set s v } : Register α).isBehind s =
    false := by
  simp [isBehind, Dict.contains, Dict.get?_set]

/-- A text that is found only among the other entries stands behind itself. -/
theorem isBehind_of_find? (hnone : r.texts.get? s = none)
    (h : find? (.text s) r.others = some v) : r.isBehind s = true := by
  obtain ⟨e, he, -⟩ := Option.map_eq_some_iff.1 h
  have hagree : e.1.agrees (.text s) = true :=
    List.find?_some (p := fun e : Id × α => e.1.agrees (.text s)) he
  have hdisplay : e.1.display = s := by
    rw [Value.agrees_comm] at hagree
    rw [← Value.eq_of_agrees rfl hagree]
    rfl
  have hany : (r.others.any fun e => e.1.display == s) = true :=
    List.any_eq_true.2 ⟨e, List.mem_of_find?_eq_some he, by simp [hdisplay]⟩
  simp [isBehind, Dict.contains, hnone, hany]

/-- Of two writes under one id the later counts. -/
theorem set_set (r : Register α) (k : Id) (v w : α) : (r.set k v).set k w = r.set k w := by
  cases k with
  | text s =>
    by_cases h : r.isBehind s = true
    · simp only [set, if_pos h, if_pos (isBehind_of_set h), put_put]
    · simp only [set, if_neg h, not_isBehind_of_set, Bool.false_eq_true, if_false, Dict.set_set]
  | _ => simp only [set, put_put]

/-- A write of what is there already changes nothing. -/
theorem set_of_get? (h : r.get? k = some v) : r.set k v = r := by
  cases k with
  | text s =>
    rw [get?_text] at h
    cases htexts : r.texts.get? s with
    | some u =>
      rw [htexts] at h
      cases h
      have hnot : ¬r.isBehind s = true := by simp [isBehind, Dict.contains, htexts]
      simp only [set, if_neg hnot, Dict.set_of_get? htexts]
    | none =>
      rw [htexts, Option.none_or] at h
      simp only [set, if_pos (isBehind_of_find? htexts h), put_of_find? h]
  | _ => simp only [set, put_of_find? h]

/-- After writes under different texts a look-up finds what was written under the text, and else
what was there before. -/
theorem get?_foldl_set (f : β → α) {name : String} :
    ∀ {entries : List (String × β)} (r : Register α), (entries.map Prod.fst).Nodup →
      (entries.foldl (fun r e => r.set (.text e.1) (f e.2)) r).get? (.text name) =
        ((entries.lookup name).map f).or (r.get? (.text name))
  | [], _, _ => rfl
  | (a, v) :: entries, r, h => by
    obtain ⟨ha, h⟩ := List.nodup_cons.1 h
    rw [List.foldl_cons, get?_foldl_set f _ h, get?_set, Value.text_agrees_text, List.lookup_cons]
    cases hname : name == a with
    | false => rfl
    | true =>
      have hnone : entries.lookup name = none := List.lookup_eq_none_iff.2 fun e he => by
        rw [eq_of_beq hname, bne_iff_ne]
        exact fun heq => ha (List.mem_map.2 ⟨e, he, heq.symm⟩)
      rw [hnone]
      rfl

end Register

namespace Session

theorem setPlan_setPlan (s : Session) (id : Id) (p q : LoopPlan) :
    (s.setPlan id p).setPlan id q = s.setPlan id q := by
  simp only [setPlan, Register.set_set]

theorem setPlan_of_plan? {s : Session} {id : Id} {p : LoopPlan} (h : s.plan? id = some p) :
    s.setPlan id p = s := by
  rw [setPlan, Register.set_of_get? h]

end Session

end Questionnaire
