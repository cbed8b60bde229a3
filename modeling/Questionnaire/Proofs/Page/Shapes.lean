import Questionnaire.Proofs.Page.Stability

/-!
# The shape of an order

A new order is more than a permutation (`Order.fresh_shaped`). A grouped one has the items of each
group in one block, and behind all blocks the items without a group; a weighted one has the items of
low weight behind all others (`Order.Shaped`). For a grouped order this is shown of the blocks in
which it is drawn (`Order.exists_blocks`), each of which holds the items of one key.

Shapes are closed under leaving things out (`Order.Shaped.filter`), and of a kept order a later
request gets the part that it asks for, whatever was put behind it in between. So the shape that an
order has when it is drawn is that of all its parts that are shown later
(`Order.answer_shaped`).
-/

namespace Questionnaire

open Flow

namespace Order

/-! ## Shapes -/

/-- The items of each group stand together, and those without a group are behind all others. -/
structure Together (l : List Sortable) : Prop where
  block : ∀ key : Id, key.isTruthy = true → ∃ before block after, l = before ++ block ++ after ∧
    (∀ i ∈ block, i.groupKey.agrees key = true) ∧
    ∀ i ∈ before ++ after, i.groupKey.agrees key = false
  last : l.Pairwise fun i j => j.isGrouped = true → i.isGrouped = true

/-- What a way to put things in order makes of them. -/
structure Shaped (weighting : Weighting) (mode : OrderMode) (l : List Sortable) : Prop where
  groups : mode = .groupRandom → Together l
  weights : mode = .weighted → weighting = .sampled →
    l.Pairwise fun i j => j.isLow = false → i.isLow = false

variable {weighting : Weighting} {mode : OrderMode} {items l : List Sortable}

theorem Together.filter (h : Together l) (test : Sortable → Bool) : Together (l.filter test) where
  block := by
    intro key hkey
    obtain ⟨before, block, after, rfl, hblock, hrest⟩ := h.block key hkey
    refine ⟨before.filter test, block.filter test, after.filter test, ?_, ?_, ?_⟩
    · rw [List.filter_append, List.filter_append]
    · exact fun i hi => hblock i (List.mem_filter.1 hi).1
    · rw [← List.filter_append]
      exact fun i hi => hrest i (List.mem_filter.1 hi).1
  last := h.last.filter test

/-- What is left of an order has its shape. -/
theorem Shaped.filter (h : Shaped weighting mode l) (test : Sortable → Bool) :
    Shaped weighting mode (l.filter test) where
  groups := fun hmode => (h.groups hmode).filter test
  weights := fun hmode hweighting => (h.weights hmode hweighting).filter test

/-! ## From ids to items -/

/-- A permutation of what a function gives on a list is what it gives on a permutation. -/
theorem exists_map_eq_of_perm {α β : Type} {f : α → β} {m : List β} {l : List α}
    (h : m.Perm (l.map f)) : ∃ l' : List α, l'.Perm l ∧ l'.map f = m := by
  have hmap : List.Forall₂ (fun b a => b = f a) (l.map f) l := by
    rw [List.forall₂_map_left_iff]
    exact List.forall₂_same.2 fun _ _ => rfl
  obtain ⟨l', hl', hperm⟩ := List.perm_comp_forall₂ h hmap
  refine ⟨l', hperm, ?_⟩
  clear hperm hmap h
  induction hl' with
  | nil => rfl
  | cons hba _ ih => rw [List.map_cons, ih, hba]

/-! ## Grouped orders -/

/-- The items of different groups, block by block. -/
theorem exists_blocks (items : List Sortable) : ∀ (keys : List Id) (g : Generator),
    ∃ blocks : List (List Sortable),
      List.Forall₂ (fun key block => block.Perm (items.filter fun i => i.groupKey.agrees key))
        keys blocks ∧
      (shuffledGroups items keys g).1 = blocks.flatten.map Sortable.id
  | [], _ => ⟨[], .nil, rfl⟩
  | key :: keys, g => by
    obtain ⟨block, hblock, hids⟩ := exists_map_eq_of_perm
      (Generator.shuffle_perm (idsInGroup items key) g)
    obtain ⟨blocks, hblocks, hrest⟩ := exists_blocks items keys (g.shuffle (idsInGroup items key)).2
    refine ⟨block :: blocks, .cons hblock hblocks, ?_⟩
    rw [List.flatten_cons, List.map_append, hids, ← hrest, shuffledGroups]

variable {keys : List Id} {blocks : List (List Sortable)}

/-- Each block has one key. -/
abbrev OfKeys (keys : List Id) (blocks : List (List Sortable)) : Prop :=
  List.Forall₂ (fun key block => ∀ i ∈ block, i.groupKey.agrees key = true) keys blocks

theorem OfKeys.exists_key (h : OfKeys keys blocks) :
    ∀ i ∈ blocks.flatten, ∃ key ∈ keys, i.groupKey.agrees key = true := by
  induction h with
  | nil => exact fun i hi => nomatch hi
  | cons hblock _ ih =>
    intro i hi
    rw [List.flatten_cons] at hi
    rcases List.mem_append.1 hi with hi | hi
    · exact ⟨_, .head _, hblock i hi⟩
    · obtain ⟨key, hkey, hagrees⟩ := ih i hi
      exact ⟨key, .tail _ hkey, hagrees⟩

/-- If no two blocks have the same key, all items of one key are in one place. -/
theorem OfKeys.block (h : OfKeys keys blocks)
    (hapart : keys.Pairwise fun v w => v.agrees w = false) (key : Id) :
    ∃ before block after, blocks.flatten = before ++ block ++ after ∧
      (∀ i ∈ block, i.groupKey.agrees key = true) ∧
      ∀ i ∈ before ++ after, i.groupKey.agrees key = false := by
  induction h with
  | nil => exact ⟨[], [], [], rfl, fun _ hi => (nomatch hi), fun _ hi => (nomatch hi)⟩
  | @cons k b keys blocks hb hblocks ih =>
    obtain ⟨hk, hkeys⟩ := List.pairwise_cons.1 hapart
    cases hkey : k.agrees key with
    | true =>
      refine ⟨[], b, blocks.flatten, rfl, fun i hi => Value.agrees_trans (hb i hi) hkey, ?_⟩
      intro i hi
      obtain ⟨k', hk', hagrees⟩ := OfKeys.exists_key hblocks i hi
      rw [Value.agrees_congr hagrees, ← Value.agrees_comm, ← Value.agrees_congr hkey]
      exact hk k' hk'
    | false =>
      obtain ⟨before, block, after, hflatten, hblock, hrest⟩ := ih hkeys
      refine ⟨b ++ before, block, after, by simp [hflatten], hblock, fun i hi => ?_⟩
      rw [List.append_assoc] at hi
      rcases List.mem_append.1 hi with hi | hi
      · rw [Value.agrees_congr (hb i hi)]
        exact hkey
      · exact hrest i hi

/-- A grouped order has the groups one after the other, and behind them the items without one. -/
theorem grouped_together (items : List Sortable) (g : Generator) :
    ∃ arranged : List Sortable, arranged.Perm items ∧
      arranged.map Sortable.id = (grouped items g).1 ∧ Together arranged := by
  let keys := (g.shuffle (groupKeys items)).1
  have hkeys : keys.Perm (groupKeys items) := Generator.shuffle_perm _ g
  have hapart : keys.Pairwise fun v w => v.agrees w = false :=
    (pairwise_groupKeys items).perm hkeys.symm fun hvw => Value.agrees_comm _ _ ▸ hvw
  obtain ⟨blocks, hblocks, hids⟩ := exists_blocks items keys (g.shuffle (groupKeys items)).2
  obtain ⟨rest, hrest, hrestIds⟩ := exists_map_eq_of_perm (Generator.shuffle_perm
    (ungroupedIds items) (shuffledGroups items keys (g.shuffle (groupKeys items)).2).2)
  have hgrouped : blocks.flatten.Perm (items.filter Sortable.isGrouped) :=
    ((List.Perm.flatten_congr (List.forall₂_map_right_iff.2 hblocks.flip)).trans
      (hkeys.flatMap_right _)).trans (groups_perm items)
  have hin : ∀ i ∈ blocks.flatten, i.isGrouped = true := fun i hi =>
    (List.mem_filter.1 (hgrouped.mem_iff.1 hi)).2
  have hout : ∀ i ∈ rest, i.isGrouped = false := fun i hi => by
    simpa using (List.mem_filter.1 (hrest.mem_iff.1 hi)).2
  have hofKeys : OfKeys keys blocks := hblocks.imp fun key block hblock i hi =>
    (List.mem_filter.1 (hblock.mem_iff.1 hi)).2
  refine ⟨blocks.flatten ++ rest, (hgrouped.append hrest).trans
    (List.filter_append_perm Sortable.isGrouped items), ?_, ?_, ?_⟩
  · rw [List.map_append, ← hids, hrestIds, grouped]
  · intro key hkey
    obtain ⟨before, block, after, hflatten, hblock, hothers⟩ := hofKeys.block hapart key
    refine ⟨before, block, after ++ rest, by simp [hflatten], hblock, fun i hi => ?_⟩
    rw [← List.append_assoc] at hi
    rcases List.mem_append.1 hi with hi | hi
    · exact hothers i hi
    · -- An item without a group has no key in common with a group.
      refine Bool.eq_false_iff.2 fun hagrees => ?_
      have htruthy := Value.isTruthy_of_agrees hagrees
      rw [hkey] at htruthy
      exact Bool.false_ne_true ((hout i hi).symm.trans htruthy)
  · refine List.pairwise_append.2 ⟨?_, ?_, fun i hi _ _ _ => hin i hi⟩
    · exact List.pairwise_of_forall_mem_list fun i hi _ _ _ => hin i hi
    · exact List.pairwise_of_forall_mem_list fun _ _ j hj hgrouped =>
        absurd hgrouped (by simp [hout j hj])

/-! ## Weighted orders -/

/-- A weighted order has the items of low weight behind all others. -/
theorem weighted_lowLast {g g' : Generator} {ids : List Id}
    (h : weighted items g = (.ok ids, g')) :
    ∃ arranged : List Sortable, arranged.Perm items ∧ arranged.map Sortable.id = ids ∧
      arranged.Pairwise fun i j => j.isLow = false → i.isLow = false := by
  unfold weighted at h
  split at h
  · cases h
  next keyed others g'' hkeys =>
  cases h
  obtain ⟨hkeyed, hothers⟩ := withSortKeys_eq hkeys
  obtain ⟨high, hhigh, hhighIds⟩ :=
    exists_map_eq_of_perm ((byFallingKey_perm keyed).trans (.of_eq hkeyed))
  obtain ⟨low, hlow, hlowIds⟩ :=
    exists_map_eq_of_perm ((Generator.shuffle_perm others g'').trans (.of_eq hothers))
  have hnotLow : ∀ i ∈ high, i.isLow = false := fun i hi => by
    simpa using (List.mem_filter.1 (hhigh.mem_iff.1 hi)).2
  have hisLow : ∀ i ∈ low, i.isLow = true := fun i hi =>
    (List.mem_filter.1 (hlow.mem_iff.1 hi)).2
  refine ⟨high ++ low, (hhigh.append hlow).trans ?_, ?_, ?_⟩
  · exact List.perm_append_comm.trans (List.filter_append_perm Sortable.isLow items)
  · rw [List.map_append, hhighIds, hlowIds]
    rfl
  · refine List.pairwise_append.2 ⟨?_, ?_, fun i hi _ _ _ => hnotLow i hi⟩
    · exact List.pairwise_of_forall_mem_list fun i hi _ _ _ => hnotLow i hi
    · exact List.pairwise_of_forall_mem_list fun _ _ j hj hhigh =>
        absurd (hisLow j hj) (by simp [hhigh])

/-! ## New orders -/

/-- A new order is a permutation of the items in the shape of its mode. -/
theorem fresh_shaped {g g' : Generator} {ids : List Id}
    (h : fresh weighting mode items g = (.ok ids, g')) :
    ∃ arranged : List Sortable, arranged.Perm items ∧ arranged.map Sortable.id = ids ∧
      Shaped weighting mode arranged := by
  have hfree (hgroups : mode ≠ .groupRandom)
      (hweights : ¬(mode = .weighted ∧ weighting = .sampled)) :
      ∃ arranged : List Sortable, arranged.Perm items ∧ arranged.map Sortable.id = ids ∧
        Shaped weighting mode arranged := by
    obtain ⟨arranged, hperm, hids⟩ := exists_map_eq_of_perm (fresh_perm h)
    exact ⟨arranged, hperm, hids, fun hmode => absurd hmode hgroups,
      fun hmode hweighting => absurd ⟨hmode, hweighting⟩ hweights⟩
  cases mode with
  | sequential => exact hfree (by decide) (by simp)
  | random => exact hfree (by decide) (by simp)
  | groupRandom =>
    rw [fresh] at h
    split at h
    · cases h
    · cases h
      obtain ⟨arranged, hperm, hids, htogether⟩ := grouped_together items g
      exact ⟨arranged, hperm, hids, fun _ => htogether,
        fun hmode => absurd hmode (by decide)⟩
  | weighted =>
    cases weighting with
    | shuffled => exact hfree (by decide) (by simp)
    | sampled =>
      obtain ⟨arranged, hperm, hids, hlow⟩ := weighted_lowLast h
      exact ⟨arranged, hperm, hids, fun hmode => absurd hmode (by decide), fun _ _ => hlow⟩

/-! ## Later requests -/

/-- A request that fails leaves the session as it is. -/
theorem arrange_error {scope owner : String} {e : Fault} {d d' : Desk}
    (h : (arrange weighting scope owner mode items).perform d = (.error e, d')) :
    d'.session = d.session := by
  unfold arrange at h
  split at h
  · cases h
  simp only [perform_bind, perform_session] at h
  split at h
  · simp only [perform_bind, perform_drawn, perform_ofResult] at h
    cases hfresh : (fresh weighting mode items d.generator).1 with
    | error _ =>
      rw [hfresh] at h
      cases h
      rfl
    | ok _ =>
      rw [hfresh] at h
      cases h
  · next kept _ =>
    simp only [perform_bind, Flow.demandKeys, perform_ofResult] at h
    cases hdemand : Questionnaire.demandKeys (items.map Sortable.id ++ kept) with
    | error _ =>
      rw [hdemand] at h
      cases h
      rfl
    | ok _ =>
      rw [hdemand] at h
      cases h

/-- Whatever comes of a request for things that can be looked for, no order is dropped and none
changed. -/
theorem Request.grown {q : Request} (hq : Keyed q.ids) {r : Except Fault (List Id)} {d d' : Desk}
    (h : q.answer.perform d = (r, d')) : Grown d.session.orders d'.session.orders := by
  cases r with
  | ok reply => exact (answer_arranged h).grown hq
  | error e =>
    obtain ⟨d₁, hsession, hanswer⟩ := q.answer_perform d
    rw [arrange_error (hanswer.symm.trans h), hsession]
    exact .refl _

/-- The sessions that requests lead to, each with a generator of its own, whether or not they have a
result. -/
inductive Later (s : Session) : Session → Prop
  | now : Later s s
  | request {t : Session} {q : Request} {g : Generator} {events : List Event}
      {r : Except Fault (List Id)} {d : Desk} : Later s t → Keyed q.ids →
      q.answer.perform ⟨t, g, events⟩ = (r, d) → Later s d.session

theorem Later.grown {s t : Session} (h : Later s t) : Grown s.orders t.orders := by
  induction h with
  | now => exact .refl _
  | request _ hkeyed hanswer ih => exact ih.trans (Request.grown hkeyed hanswer)

/-! ## The shape that an order keeps -/

/-- Of an order of texts that is kept a request gets the part that it asks for, if it asks for
nothing else. -/
theorem Request.answer_of_kept {q : Request} {d : Desk} {kept order : List Id}
    (hmode : q.orderMode ≠ .sequential) (hkept : ∀ id ∈ kept, id.isText = true)
    (hids : q.ids ⊆ kept) (horder : d.session.orders.get? q.key = some order)
    (hmore : Continues kept order) :
    ∃ d', q.answer.perform d = (.ok (kept.filter (· ∈ q.ids)), d') := by
  obtain ⟨d₁, hsession, hanswer⟩ := q.answer_perform d
  have hkeyed : Keyed (q.ids ++ order) := by
    obtain ⟨more, rfl, hnew⟩ := hmore
    intro id hid
    rw [List.mem_append, List.mem_append] at hid
    rcases hid with hid | hid | hid
    · exact Value.isCompound_of_isText (hkept id (hids hid))
    · exact Value.isCompound_of_isText (hkept id hid)
    · exact (hnew id hid).2
  have hcovers : Covers kept q.ids := fun id hid => isAmong_of_mem (hids hid)
  have hreply : restricted order q.ids = kept.filter (· ∈ q.ids) := by
    rw [restricted_of_covers (hcovers.continues hmore), hcovers.filter_continues hmore]
    refine List.filter_congr fun id hid => ?_
    rw [Bool.eq_iff_iff, Value.isAmong_iff_mem_of_isText (hkept id hid), decide_eq_true_iff]
  exact ⟨_, by rw [hanswer, arrange_of_kept hmode (hsession ▸ horder) hkeyed]; rw [← hreply]; rfl⟩

/-- **The shape of an order is there from the start and stays.** A request for an order that is not
kept gets a permutation of its items in the shape of its mode, whatever the generator. Every later
request for this order that asks for nothing else gets a part of it, which has the same shape. -/
theorem answer_shaped {q : Request} {s : Session} (hmode : q.orderMode ≠ .sequential)
    (hgroups : ∀ i ∈ q.items, i.groupKey.isCompound = false)
    (hweights : ∀ i ∈ q.items, ∃ w, weightOf i = .ok w) (habsent : s.orders.get? q.key = none)
    (g : Generator) (events : List Event) :
    ∃ (arranged : List Sortable) (d : Desk),
      q.answer.perform ⟨s, g, events⟩ = (.ok (arranged.map Sortable.id), d) ∧
      arranged.Perm q.items ∧ Shaped q.weighting q.orderMode arranged ∧
      ((∀ id ∈ q.ids, id.isText = true) → ∀ t, Later d.session t → ∀ q' : Request,
        q'.key = q.key → q'.orderMode ≠ .sequential → q'.ids ⊆ q.ids → ∀ g' events',
        let part := arranged.filter fun i => i.id ∈ q'.ids
        (∃ d', q'.answer.perform ⟨t, g', events'⟩ = (.ok (part.map Sortable.id), d')) ∧
        Shaped q.weighting q.orderMode part) := by
  obtain ⟨d₁, hsession, hanswer⟩ := q.answer_perform ⟨s, g, events⟩
  obtain ⟨ids, g₁, hfresh⟩ := exists_fresh hgroups hweights q.weighting q.orderMode d₁.generator
  obtain ⟨arranged, hperm, rfl, hshaped⟩ := fresh_shaped hfresh
  have habsent₁ : d₁.session.orders.get? (cacheKey q.scope q.owner q.orderMode) = none :=
    hsession ▸ habsent
  refine ⟨arranged, _, hanswer.trans (arrange_of_absent hmode habsent₁ hfresh), hperm, hshaped, ?_⟩
  intro htexts t hlater q' hkey hmode' hids g' events' part
  refine ⟨?_, hshaped.filter _⟩
  have hmem : ∀ id, id ∈ arranged.map Sortable.id ↔ id ∈ q.ids := fun id =>
    (hperm.map Sortable.id).mem_iff
  obtain ⟨order, horder, hmore⟩ := hlater.grown q.key (arranged.map Sortable.id) <| by
    rw [Session.keepOrder, Request.key, Dict.get?_set, if_pos rfl]
  obtain ⟨d', hd'⟩ := Request.answer_of_kept (d := ⟨t, g', events'⟩) hmode'
    (fun id hid => htexts id ((hmem id).1 hid)) (fun id hid => (hmem id).2 (hids hid))
    (hkey ▸ horder) hmore
  refine ⟨d', hd'.trans ?_⟩
  rw [List.filter_map]
  rfl

/-- Two starters stand side by side, and bread comes last. Later bread is not asked for. -/
theorem answer_shaped_menu :
    let s : Session := .new (.text "s1") (.text "survey") ∅
    let q : Request := ⟨.sampled, "option", "q1", .text "GROUP_RANDOM",
      [⟨.text "soup", .text "starter", .null⟩, ⟨.text "bread", .null, .null⟩,
        ⟨.text "steak", .text "main", .null⟩, ⟨.text "salad", .text "starter", .null⟩]⟩
    let q' : Request := .plain "q1" "GROUP_RANDOM" ["soup", "steak", "salad"]
    ∃ (arranged : List Sortable) (d d' : Desk),
      q.answer.perform ⟨s, .ofScript [900, 0, 100], []⟩ = (.ok (arranged.map Sortable.id), d) ∧
      arranged.map Sortable.id = ["salad", "soup", "steak", "bread"].map .text ∧
      Together arranged ∧ Together (arranged.filter fun i => i.id ∈ q'.ids) ∧
      q'.answer.perform ⟨d.session, .ofScript [0], []⟩ =
        (.ok (["salad", "soup", "steak"].map .text), d') := by
  intro s q q'
  have hweights : ∀ i ∈ q.items, ∃ w, weightOf i = .ok w := by
    simp only [q, List.forall_mem_cons]
    exact ⟨⟨_, rfl⟩, ⟨_, rfl⟩, ⟨_, rfl⟩, ⟨_, rfl⟩, fun _ hi => nomatch hi⟩
  obtain ⟨arranged, d, hanswer, -, hshaped, hlater⟩ :=
    @answer_shaped q s (by decide) (by decide) hweights rfl (.ofScript [900, 0, 100]) []
  obtain ⟨⟨d', hagain⟩, hpart⟩ :=
    hlater (by decide) d.session .now q' rfl (by decide) (by decide) (.ofScript [0]) []
  have hreply : (q.answer.perform ⟨s, .ofScript [900, 0, 100], []⟩).1 =
      .ok (["salad", "soup", "steak", "bread"].map .text) := by decide +kernel
  rw [hanswer] at hreply
  have hids := Except.ok.inj hreply
  have hshown : (arranged.filter fun i => i.id ∈ q'.ids).map Sortable.id =
      ["salad", "soup", "steak"].map .text := by
    have hfilter := congrArg (List.filter (· ∈ q'.ids)) hids
    rw [List.filter_map] at hfilter
    exact hfilter.trans (by decide)
  rw [hshown] at hagain
  exact ⟨arranged, d, d', hanswer, hids, hshaped.groups rfl, hpart.groups rfl, hagain⟩

end Order

end Questionnaire
