import Questionnaire.Proofs.Page.Arranging

/-!
# Orders only grow

An order that is kept is never changed and never dropped. What is new is put behind it
(`Order.Continues`), so of two states of a session the later one has every order of the earlier one
and perhaps more of it (`Order.Grown`).

A request is settled by an order that has all requested ids (`Order.Covers`): whatever is put
behind the order later, the request gets the same ids and changes nothing (`Order.Arranged.again`).
-/

namespace Questionnaire

open Flow

namespace Order

/-! ## What is put behind an order -/

/-- An order that has another one as its beginning, and behind it ids that are new and can be looked
for. -/
def Continues (kept order : List Id) : Prop :=
  ∃ more, order = kept ++ more ∧ ∀ id ∈ more, id.isAmong kept = false ∧ id.isCompound = false

/-- Every requested id means one of an order. -/
def Covers (order ids : List Id) : Prop := ∀ id ∈ ids, id.isAmong order = true

variable {kept order ids : List Id}

theorem isAmong_append (v : Id) (l m : List Id) :
    v.isAmong (l ++ m) = (v.isAmong l || v.isAmong m) := List.any_append

theorem isAmong_of_mem {v : Id} {l : List Id} (h : v ∈ l) : v.isAmong l = true :=
  List.any_eq_true.2 ⟨v, h, Value.agrees_self v⟩

/-- What agrees with one of a list is among the ids that the list is among. -/
theorem isAmong_of_covers {v : Id} (h : Covers order ids) (hv : v.isAmong ids = true) :
    v.isAmong order = true := by
  obtain ⟨w, hw, hwv⟩ := List.any_eq_true.1 hv
  obtain ⟨u, hu, huw⟩ := List.any_eq_true.1 (h w hw)
  exact List.any_eq_true.2 ⟨u, hu, Value.agrees_trans huw hwv⟩

theorem Continues.refl (kept : List Id) : Continues kept kept := ⟨[], by simp, by simp⟩

theorem Continues.trans {first second third : List Id} (h : Continues first second)
    (h' : Continues second third) : Continues first third := by
  obtain ⟨more, rfl, hmore⟩ := h
  obtain ⟨more', rfl, hmore'⟩ := h'
  refine ⟨more ++ more', List.append_assoc _ _ _, fun id hid => ?_⟩
  rcases List.mem_append.1 hid with hid | hid
  · exact hmore id hid
  · obtain ⟨hnew, hcompound⟩ := hmore' id hid
    rw [isAmong_append, Bool.or_eq_false_iff] at hnew
    exact ⟨hnew.1, hcompound⟩

theorem Covers.continues (h : Covers kept ids) (hmore : Continues kept order) :
    Covers order ids := by
  obtain ⟨more, rfl, -⟩ := hmore
  intro id hid
  rw [isAmong_append, h id hid, Bool.true_or]

/-- An order followed by what it did not have has all of it. -/
theorem covers_append_unseen (kept ids : List Id) : Covers (kept ++ unseen kept ids) ids := by
  intro id hid
  rw [isAmong_append]
  cases hkept : id.isAmong kept with
  | true => rfl
  | false => exact isAmong_of_mem (List.mem_filter.2 ⟨hid, by simp [hkept]⟩)

theorem continues_append_unseen (hids : Keyed ids) : Continues kept (kept ++ unseen kept ids) := by
  refine ⟨_, rfl, fun id hid => ?_⟩
  obtain ⟨hmem, hnew⟩ := List.mem_filter.1 hid
  exact ⟨by simpa using hnew, hids id hmem⟩

theorem unseen_of_covers (h : Covers order ids) : unseen order ids = [] :=
  List.filter_eq_nil_iff.2 fun id hid => by simp [h id hid]

theorem restricted_of_covers (h : Covers order ids) :
    restricted order ids = order.filter fun id => id.isAmong ids := by
  rw [restricted, unseen_of_covers h, List.append_nil]

/-- What a request adds to an order is requested. -/
theorem filter_append_unseen (kept ids : List Id) :
    ((kept ++ unseen kept ids).filter fun id => id.isAmong ids) = restricted kept ids := by
  rw [List.filter_append, restricted]
  congr 1
  refine List.filter_eq_self.2 fun id hid => isAmong_of_mem (List.mem_filter.1 hid).1

/-- What is put behind an order that has all requested ids is not requested. -/
theorem Covers.filter_continues (h : Covers kept ids) (hmore : Continues kept order) :
    (order.filter fun id => id.isAmong ids) = kept.filter fun id => id.isAmong ids := by
  obtain ⟨more, rfl, hnew⟩ := hmore
  have hnone : (more.filter fun id => id.isAmong ids) = [] := by
    refine List.filter_eq_nil_iff.2 fun id hid hamong => ?_
    have hold := isAmong_of_covers h hamong
    rw [(hnew id hid).1] at hold
    cases hold
  rw [List.filter_append, hnone, List.append_nil]

/-! ## Orders of a session -/

/-- Every order that was kept is kept still, and perhaps continued. -/
def Grown (before after : Dict (List Id)) : Prop :=
  ∀ key kept, before.get? key = some kept → ∃ order, after.get? key = some order ∧
    Continues kept order

theorem Grown.refl (orders : Dict (List Id)) : Grown orders orders :=
  fun _ kept h => ⟨kept, h, .refl kept⟩

theorem Grown.trans {first second third : Dict (List Id)} (h : Grown first second)
    (h' : Grown second third) : Grown first third := by
  intro key kept hkept
  obtain ⟨order, horder, hmore⟩ := h key kept hkept
  obtain ⟨order', horder', hmore'⟩ := h' key order horder
  exact ⟨order', horder', hmore.trans hmore'⟩

/-- A new order does not touch the others. -/
theorem grown_set_new {orders : Dict (List Id)} {key : String} (h : orders.get? key = none) :
    Grown orders (orders.set key order) := by
  intro j kept hj
  have hne : j ≠ key := by
    rintro rfl
    rw [h] at hj
    cases hj
  exact ⟨kept, by rw [Dict.get?_set, if_neg hne, hj], .refl kept⟩

/-- An order is continued in its place. -/
theorem grown_set_continued {orders : Dict (List Id)} {key : String}
    (h : orders.get? key = some kept) (hmore : Continues kept order) :
    Grown orders (orders.set key order) := by
  intro j ids hj
  by_cases hkey : j = key
  · subst hkey
    rw [h] at hj
    cases hj
    exact ⟨order, by rw [Dict.get?_set, if_pos rfl], hmore⟩
  · exact ⟨ids, by rw [Dict.get?_set, if_neg hkey, hj], .refl ids⟩

namespace Arranged

variable {scope owner : String} {mode : OrderMode} {items : List Sortable} {s t : Session}

/-- A request for things that can be looked for drops no order and changes none. -/
theorem grown (h : Arranged scope owner mode items s ids t)
    (hkeyed : Keyed (items.map Sortable.id)) : Grown s.orders t.orders := by
  cases h with
  | authored _ => exact .refl _
  | drawn _ hnone _ => exact grown_set_new hnone
  | reused _ hkept _ => exact grown_set_continued hkept (continues_append_unseen hkeyed)

/-- What a request for another than the authored order leaves behind is an order that has all
requested ids, and the ids are the requested ones in this order. -/
theorem settled (h : Arranged scope owner mode items s ids t) (hmode : mode ≠ .sequential) :
    ∃ order, t.orders.get? (cacheKey scope owner mode) = some order ∧
      Covers order (items.map Sortable.id) ∧
      ids = (order.filter fun id => id.isAmong (items.map Sortable.id)) ∧
      (Keyed (items.map Sortable.id) → Keyed order) := by
  cases h with
  | authored hseq => exact absurd hseq hmode
  | drawn _ _ hperm =>
    refine ⟨ids, by rw [Session.keepOrder, Dict.get?_set, if_pos rfl], ?_, ?_, ?_⟩
    · exact fun id hid => isAmong_of_mem (hperm.mem_iff.2 hid)
    · exact (List.filter_eq_self.2 fun id hid => isAmong_of_mem (hperm.mem_iff.1 hid)).symm
    · exact fun hkeyed id hid => hkeyed id (hperm.mem_iff.1 hid)
  | @reused kept _ hkept hall =>
    refine ⟨_, by rw [Session.keepOrder, Dict.get?_set, if_pos rfl], covers_append_unseen _ _,
      (filter_append_unseen _ _).symm, fun hkeyed id hid => ?_⟩
    rcases List.mem_append.1 hid with hid | hid
    · exact hall id (List.mem_append_right _ hid)
    · exact hkeyed id (List.mem_filter.1 hid).1

/-- Once a request has a result, the same request has the same result and changes nothing, however
the orders have grown in between and whatever the generator. -/
theorem again (h : Arranged scope owner mode items s ids t)
    (hkeyed : Keyed (items.map Sortable.id)) {weighting : Weighting} {d : Desk}
    (hgrown : Grown t.orders d.session.orders) :
    ∃ d', (arrange weighting scope owner mode items).perform d = (.ok ids, d') ∧
      d'.session = d.session := by
  by_cases hmode : mode = .sequential
  · subst hmode
    cases h with
    | authored _ => exact ⟨d, rfl, rfl⟩
    | drawn hne _ _ => exact absurd rfl hne
    | reused hne _ _ => exact absurd rfl hne
  obtain ⟨kept, hkept, hcovers, rfl, hkeptKeyed⟩ := h.settled hmode
  obtain ⟨order, horder, hmore⟩ := hgrown _ kept hkept
  -- What was put behind by other requests can be looked for, since `Continues` says so.
  have hall : Keyed (items.map Sortable.id ++ order) := by
    obtain ⟨more, rfl, hnew⟩ := hmore
    intro id hid
    simp only [List.mem_append] at hid
    rcases hid with hid | hid | hid
    · exact hkeyed id hid
    · exact hkeptKeyed hkeyed id hid
    · exact (hnew id hid).2
  have hcovers' := hcovers.continues hmore
  refine ⟨_, by rw [arrange_of_kept hmode horder hall, restricted_of_covers hcovers',
    hcovers.filter_continues hmore], ?_⟩
  rw [unseen_of_covers hcovers', List.append_nil, Session.keepOrder, Dict.set_of_get? horder]

end Arranged

end Order

end Questionnaire
