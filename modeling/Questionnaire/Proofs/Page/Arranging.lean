import Mathlib.Data.List.Perm.Basic
import Questionnaire.Page.Order
import Questionnaire.Proofs.Flow

/-!
# What a new order is

Whatever the mode and whatever the generator draws, a new order has the requested ids and nothing
else (`Order.fresh_perm`). For a shuffle this is a law of the generator. A grouped order takes the
ids group by group, and an item is in exactly one group or in none, since group keys that agree are
one key and agree in being given (`Value.isTruthy_of_agrees`). A weighted order sorts the ids of
positive weight and puts the others behind.

All that a request for an order can do is told by `Order.arrange_ensures`: the authored order is
given back as it is, a new order is drawn and kept, or a kept order is restricted to the requested
ids and the others are put behind (`Order.Arranged`).
-/

namespace Questionnaire

open Flow

/-! ## Agreement in being given -/

/-- A number that is an integer is zero exactly if the integer is. -/
theorem Binary64.compareInt?_zero {x : Binary64} {i : Int} (h : x.toInt? = some i) :
    x.compareInt? 0 = some .eq ↔ i = 0 := by
  cases x with
  | nan _ | infinite _ => cases h
  | finite s m e =>
    have hsigned : ∀ n : Nat, signed s n = 0 ↔ n = 0 := by
      intro n
      cases s <;> simp [signed]
    have hcompare : compareScaled (signed s m) e 0 0 = .eq ↔ m = 0 := by
      have hpos := twoTo_pos (e - min e 0).toNat
      rw [compareScaled, Std.compare_eq_iff_eq, Int.zero_mul, Int.mul_eq_zero, hsigned]
      omega
    have hzero : i = 0 ↔ m = 0 := by
      simp only [toInt?] at h
      split at h
      · have hpos := twoTo_pos e.toNat
        rw [← Option.some.inj h, hsigned, Nat.mul_eq_zero]
        omega
      · split at h
        · next hdvd =>
          have hm := Nat.div_add_mod m (twoTo (-e).toNat)
          rw [← Option.some.inj h, hsigned]
          constructor
          · intro hdiv
            rw [hdiv, hdvd, Nat.mul_zero] at hm
            exact hm.symm
          · rintro rfl
            exact Nat.zero_div _
        · cases h
    rw [hzero, ← hcompare, compareInt?, Option.some.injEq]

theorem Value.isTruthy_canonical (v : Value) : v.canonical.isTruthy = v.isTruthy := by
  cases v with
  | bool b => cases b <;> rfl
  | float x =>
    simp only [canonical]
    split
    · next i hi =>
      have hzero := Binary64.compareInt?_zero hi
      rw [isTruthy, isTruthy, Bool.eq_iff_iff, bne_iff_ne, bne_iff_ne]
      exact (not_congr hzero).symm
    · rfl
  | list items => cases items <;> simp [canonical, canonicalItems, isTruthy]
  | map entries => cases entries <;> simp [canonical, canonicalEntries, isTruthy]
  | _ => simp [canonical]

/-- Values in agreement are both given or both not. -/
theorem Value.isTruthy_of_agrees {v w : Value} (h : v.agrees w = true) :
    v.isTruthy = w.isTruthy := by
  rw [← isTruthy_canonical v, agrees_iff.1 h, isTruthy_canonical w]

/-- The session with an order under a key. -/
def Session.keepOrder (s : Session) (key : String) (ids : List Id) : Session :=
  { s with orders := s.orders.set key ids }

/-- Whether a thing has a weight that is not above zero. -/
def Sortable.isLow (i : Sortable) : Bool :=
  match Order.weightOf i with
  | .ok w => w.isNonpositive
  | .error _ => false

namespace Order

variable {weighting : Weighting} {scope owner : String} {mode : OrderMode} {items : List Sortable}

/-! ## Groups -/

/-- Collecting values of which no two agree. -/
theorem foldl_distinct : ∀ (l acc : List Id),
    (acc.Pairwise fun v w => v.agrees w = false) →
    let keys := l.foldl (fun keys k => if k.isAmong keys then keys else keys ++ [k]) acc
    (keys.Pairwise fun v w => v.agrees w = false) ∧
      ∀ v : Id, v.isAmong keys = (v.isAmong acc || v.isAmong l)
  | [], acc, h => ⟨h, fun v => by simp [Value.isAmong]⟩
  | k :: r, acc, h => by
    rw [List.foldl_cons]
    by_cases hk : k.isAmong acc = true
    · rw [if_pos hk]
      obtain ⟨hapart, hamong⟩ := foldl_distinct r acc h
      refine ⟨hapart, fun v => ?_⟩
      rw [hamong]
      -- Whatever agrees with `k` agrees with what `k` agrees with.
      cases hv : k.agrees v with
      | false => simp [Value.isAmong, hv]
      | true =>
        obtain ⟨w, hw, hwk⟩ := List.any_eq_true.1 hk
        have hwv : v.isAmong acc = true := List.any_eq_true.2 ⟨w, hw, Value.agrees_trans hwk hv⟩
        rw [hwv, Bool.true_or, Bool.true_or]
    · rw [if_neg hk]
      have hk : k.isAmong acc = false := by simpa using hk
      obtain ⟨hapart, hamong⟩ := foldl_distinct r (acc ++ [k]) <| by
        refine List.pairwise_append.2 ⟨h, List.pairwise_singleton _ _, fun v hv w hw => ?_⟩
        rw [List.mem_singleton.1 hw]
        simpa using List.any_eq_false.1 hk v hv
      refine ⟨hapart, fun v => ?_⟩
      rw [hamong]
      simp [Value.isAmong, Bool.or_assoc]

/-- No two group keys agree. -/
theorem pairwise_groupKeys (items : List Sortable) :
    (groupKeys items).Pairwise fun v w => v.agrees w = false :=
  (foldl_distinct _ [] .nil).1

/-- The items whose group keys are among those given are the ones that belong to a group. -/
theorem isAmong_groupKeys {i : Sortable} (hi : i ∈ items) :
    i.groupKey.isAmong (groupKeys items) = i.isGrouped := by
  have hamong := (foldl_distinct ((items.filter Sortable.isGrouped).map Sortable.groupKey) []
    .nil).2 i.groupKey
  rw [groupKeys, hamong, Bool.eq_iff_iff]
  simp only [Value.isAmong, List.any_nil, Bool.false_or, List.any_eq_true, List.mem_map,
    List.mem_filter]
  constructor
  · rintro ⟨_, ⟨j, ⟨-, hj⟩, rfl⟩, hagree⟩
    rw [Sortable.isGrouped, ← Value.isTruthy_of_agrees hagree]
    exact hj
  · exact fun hgrouped => ⟨_, ⟨i, ⟨hi, hgrouped⟩, rfl⟩, Value.agrees_self _⟩

/-- Two filters that let nothing through both let through together what one of them does. -/
theorem filter_append_filter_or_perm {α : Type} {f g : α → Bool} {l : List α}
    (h : ∀ a ∈ l, f a = true → g a = false) :
    (l.filter f ++ l.filter g).Perm (l.filter fun a => f a || g a) := by
  have hfirst : l.filter f = (l.filter fun a => f a || g a).filter f := by
    rw [List.filter_filter]
    refine List.filter_congr fun a _ => ?_
    cases f a <;> simp
  have hothers : l.filter g = (l.filter fun a => f a || g a).filter fun a => !f a := by
    rw [List.filter_filter]
    refine List.filter_congr fun a ha => ?_
    cases hf : f a with
    | false => simp
    | true => simp [h a ha hf]
  rw [hfirst, hothers]
  exact List.filter_append_perm f _

/-- Filters of which no two let the same thing through let through one after the other what one of
them does. -/
theorem flatMap_filter_perm {α β : Type} {f : β → α → Bool} {l : List α} : ∀ {keys : List β},
    (keys.Pairwise fun j k => ∀ a ∈ l, f j a = true → f k a = false) →
      (keys.flatMap fun k => l.filter (f k)).Perm (l.filter fun a => keys.any fun k => f k a)
  | [], _ => by simp
  | k :: r, h => by
    obtain ⟨hk, hr⟩ := List.pairwise_cons.1 h
    rw [List.flatMap_cons]
    refine ((flatMap_filter_perm hr).append_left _).trans ?_
    simp only [List.any_cons]
    refine filter_append_filter_or_perm fun a ha hka => List.any_eq_false.2 fun j hj => ?_
    simp [hk j hj a ha hka]

/-- Going through different keys, the items whose key agrees with one of them are met once. -/
theorem flatMap_groups_perm {keys : List Id} (h : keys.Pairwise fun v w => v.agrees w = false) :
    (keys.flatMap fun k => items.filter fun i => i.groupKey.agrees k).Perm
      (items.filter fun i => i.groupKey.isAmong keys) := by
  have hamong : (fun i : Sortable => i.groupKey.isAmong keys) =
      fun i => keys.any fun k => i.groupKey.agrees k := by
    funext i
    simp only [Value.isAmong, Value.agrees_comm _ i.groupKey]
  rw [hamong]
  refine flatMap_filter_perm (h.imp fun {j k} hjk i _ hij => ?_)
  rw [Value.agrees_congr hij]
  exact hjk

theorem shuffledGroups_perm : ∀ (keys : List Id) (g : Generator),
    (shuffledGroups items keys g).1.Perm (keys.flatMap (idsInGroup items))
  | [], _ => .refl _
  | k :: r, g => by
    rw [List.flatMap_cons]
    exact (Generator.shuffle_perm _ g).append (shuffledGroups_perm r _)

/-- Group by group, the items that belong to a group are met once. -/
theorem groups_perm (items : List Sortable) :
    ((groupKeys items).flatMap fun k => items.filter fun i => i.groupKey.agrees k).Perm
      (items.filter Sortable.isGrouped) := by
  have hmet : ((groupKeys items).flatMap fun k => items.filter fun i => i.groupKey.agrees k).Perm
      (items.filter fun i => i.groupKey.isAmong (groupKeys items)) :=
    flatMap_groups_perm (pairwise_groupKeys items)
  rwa [List.filter_congr fun i hi => isAmong_groupKeys hi] at hmet

/-- A grouped order has the requested ids. -/
theorem grouped_perm (items : List Sortable) (g : Generator) :
    (grouped items g).1.Perm (items.map Sortable.id) := by
  have hkeys : (g.shuffle (groupKeys items)).1.Perm (groupKeys items) := Generator.shuffle_perm _ g
  have hgrouped : ((groupKeys items).flatMap (idsInGroup items)).Perm
      ((items.filter Sortable.isGrouped).map Sortable.id) := by
    have hids := (groups_perm items).map Sortable.id
    rw [List.map_flatMap] at hids
    exact hids
  have hall := (List.filter_append_perm Sortable.isGrouped items).map Sortable.id
  rw [List.map_append] at hall
  refine List.Perm.trans (.append ?_ (Generator.shuffle_perm _ _)) hall
  exact ((shuffledGroups_perm _ _).trans (hkeys.flatMap_right _)).trans hgrouped

/-! ## Weights -/

/-- Sort keys are drawn for the items that have no low weight. -/
theorem withSortKeys_eq : ∀ {items : List Sortable} {g g' : Generator}
    {keyed : List (Float × Id)} {others : List Id},
    withSortKeys items g = (.ok (keyed, others), g') →
      keyed.map Prod.snd = (items.filter fun i => !i.isLow).map Sortable.id ∧
      others = (items.filter Sortable.isLow).map Sortable.id
  | [], _, _, _, _, h => by
    cases h
    exact ⟨rfl, rfl⟩
  | i :: r, g, g', keyed, others, h => by
    rw [withSortKeys] at h
    cases hw : weightOf i with
    | error e =>
      rw [hw] at h
      cases h
    | ok w =>
      have hlow : i.isLow = w.isNonpositive := by rw [Sortable.isLow, hw]
      rw [List.filter_cons, List.filter_cons, hlow]
      rw [hw] at h
      dsimp only at h
      cases hn : w.isNonpositive with
      | true =>
        rw [if_pos hn] at h
        rcases hrest : withSortKeys r g with ⟨e | ⟨keyed', others'⟩, g''⟩ <;> rw [hrest] at h <;>
          cases h
        obtain ⟨hkeyed, rfl⟩ := withSortKeys_eq hrest
        exact ⟨hkeyed, rfl⟩
      | false =>
        rw [if_neg (by simp [hn])] at h
        rcases hu : g.unit with ⟨u, g₁⟩
        rw [hu] at h
        dsimp only at h
        rcases hrest : withSortKeys r g₁ with ⟨e | ⟨keyed', others'⟩, g''⟩ <;> rw [hrest] at h <;>
          cases h
        obtain ⟨hkeyed, rfl⟩ := withSortKeys_eq hrest
        exact ⟨congrArg (i.id :: ·) hkeyed, rfl⟩

theorem withSortKeys_perm {g g' : Generator} {keyed : List (Float × Id)} {others : List Id}
    (h : withSortKeys items g = (.ok (keyed, others), g')) :
    (keyed.map Prod.snd ++ others).Perm (items.map Sortable.id) := by
  obtain ⟨hkeyed, hothers⟩ := withSortKeys_eq h
  rw [hkeyed, hothers, ← List.map_append]
  exact (List.perm_append_comm.trans (List.filter_append_perm Sortable.isLow items)).map _

theorem byFallingKey_perm (keyed : List (Float × Id)) :
    (byFallingKey keyed).Perm (keyed.map Prod.snd) := by
  refine List.Perm.map _ ((List.reverse_perm _).trans ?_)
  exact (bisectionSort_perm _ _).trans (List.reverse_perm _)

/-- A weighted order has the requested ids. -/
theorem weighted_perm {g g' : Generator} {ids : List Id} (h : weighted items g = (.ok ids, g')) :
    ids.Perm (items.map Sortable.id) := by
  unfold weighted at h
  split at h
  · cases h
  · next keyed others g'' hkeys =>
    cases h
    have hrest := (byFallingKey_perm keyed).append (Generator.shuffle_perm others g'')
    exact hrest.trans (withSortKeys_perm hkeys)

/-- A new order has the requested ids. -/
theorem fresh_perm {g g' : Generator} {ids : List Id}
    (h : fresh weighting mode items g = (.ok ids, g')) : ids.Perm (items.map Sortable.id) := by
  unfold fresh at h
  split at h
  · cases h
    exact .refl _
  · cases h
    exact Generator.shuffle_perm _ g
  · cases h
    exact Generator.shuffle_perm _ g
  · split at h
    · cases h
    · cases h
      exact grouped_perm items g
  · exact weighted_perm h

/-! ## Requests for an order -/

/-- The ids of things that can be looked for among others. -/
def Keyed (ids : List Id) : Prop := ∀ id ∈ ids, id.isCompound = false

/-- What a request for an order leads to in a session: the ids in order, and the session after
it. -/
inductive Arranged (scope owner : String) (mode : OrderMode) (items : List Sortable) (s : Session) :
    List Id → Session → Prop
  /-- The authored order is given back and nothing is kept. -/
  | authored : mode = .sequential → Arranged scope owner mode items s (items.map Sortable.id) s
  /-- A new order is drawn and kept. -/
  | drawn {ids : List Id} : mode ≠ .sequential →
      s.orders.get? (cacheKey scope owner mode) = none → ids.Perm (items.map Sortable.id) →
      Arranged scope owner mode items s ids
        (s.keepOrder (cacheKey scope owner mode) ids)
  /-- A kept order is restricted to the requested ids, and the others are put behind. -/
  | reused {kept : List Id} : mode ≠ .sequential →
      s.orders.get? (cacheKey scope owner mode) = some kept →
      Keyed (items.map Sortable.id ++ kept) →
      Arranged scope owner mode items s (restricted kept (items.map Sortable.id))
        (s.keepOrder (cacheKey scope owner mode) (kept ++ unseen kept (items.map Sortable.id)))

/-- All that a request for an order can do. -/
theorem arrange_ensures (weighting : Weighting) (scope owner : String) (mode : OrderMode)
    (items : List Sortable) (s : Session) :
    Ensures (· = s) (arrange weighting scope owner mode items)
      fun ids t => Arranged scope owner mode items s ids t := by
  unfold arrange
  refine .ite (fun hmode => .pure ?_) fun hmode => ?_
  · rintro t rfl
    exact .authored (by simpa using hmode)
  have hmode : mode ≠ .sequential := by simpa using hmode
  refine .bind .session fun t => .given (fun _ h => h.2.trans h.1) fun ht => ?_
  subst ht
  refine .mono (P := (· = t)) ?_ (fun _ h => h.1) fun _ _ h => h
  split
  · next hnone =>
    refine .bind .drawn fun r => .bind .ofResult fun order => ?_
    refine .bind (.update (Q := fun _ u => Arranged scope owner mode items t order u) ?_) fun _ =>
      .pure fun _ h => h
    rintro _ ⟨⟨rfl, g, hg⟩, hr⟩
    subst hr
    have hfresh : fresh weighting mode items g = (.ok order, (fresh weighting mode items g).2) :=
      Prod.ext hg.symm rfl
    exact .drawn hmode hnone (fresh_perm hfresh)
  · next kept hkept =>
    refine .bind Keeps.log fun _ => .bind .demandKeys fun _ => ?_
    refine .bind (.update (Q := fun _ u => Arranged scope owner mode items t
      (restricted kept (items.map Sortable.id)) u) ?_) fun _ => .pure fun _ h => h
    rintro _ ⟨rfl, hkeyed⟩
    exact .reused hmode hkept hkeyed

/-- A request for an order that is kept has a result. -/
theorem arrange_of_kept {kept : List Id} {d : Desk} (hmode : mode ≠ .sequential)
    (hkept : d.session.orders.get? (cacheKey scope owner mode) = some kept)
    (hkeyed : Keyed (items.map Sortable.id ++ kept)) :
    (arrange weighting scope owner mode items).perform d =
      (.ok (restricted kept (items.map Sortable.id)),
        ⟨d.session.keepOrder (cacheKey scope owner mode)
            (kept ++ unseen kept (items.map Sortable.id)),
          d.generator, d.events ++ [.orderReused (cacheKey scope owner mode)]⟩) := by
  have hseq : (mode == .sequential) = false := by simpa using hmode
  have hdemand : Questionnaire.demandKeys (items.map Sortable.id ++ kept) = .ok () :=
    demandKeys_eq_ok_iff.2 hkeyed
  rw [arrange, hseq]
  simp only [Bool.false_eq_true, if_false, perform_bind, perform_session, hkept]
  simp only [Flow.demandKeys, hdemand, perform_ofResult]
  rfl

/-- A request for an order that is not kept draws one and keeps it, if one can be drawn. -/
theorem arrange_of_absent {ids : List Id} {g : Generator} {d : Desk} (hmode : mode ≠ .sequential)
    (habsent : d.session.orders.get? (cacheKey scope owner mode) = none)
    (hfresh : fresh weighting mode items d.generator = (.ok ids, g)) :
    (arrange weighting scope owner mode items).perform d =
      (.ok ids, ⟨d.session.keepOrder (cacheKey scope owner mode) ids, g, d.events⟩) := by
  have hseq : (mode == .sequential) = false := by simpa using hmode
  rw [arrange, hseq]
  simp only [Bool.false_eq_true, if_false, perform_bind, perform_session, habsent, perform_drawn,
    hfresh, perform_ofResult]
  rfl

end Order

end Questionnaire
