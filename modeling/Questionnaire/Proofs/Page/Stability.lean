import Mathlib.Data.List.Nodup
import Questionnaire.Proofs.Page.Growth

/-!
# Orders over a whole run

A run answers requests for orders one after the other, each with a generator of its own, from a
session without orders (`Order.Run`). The requests may hide, reveal and add ids as they like.

Each call keeps to the contract by itself (`Order.Call.Lawful`): its reply has the requested ids,
and what was kept before is kept still. That two calls agree on the order of what both return is a
property of the run: the reply of every call is a sublist of the order that is kept now
(`Order.Remembers`), so two replies from one kept order cannot contradict each other. The authored
order is not kept, and two calls for it may contradict each other
(`Order.authored_orders_may_differ`).
-/

namespace Questionnaire

open Flow

namespace Order

/-! ## Relative order -/

/-- One thing stands before another in a list. -/
def Before {α : Type} (a b : α) (l : List α) : Prop := [a, b].Sublist l

instance {α : Type} [DecidableEq α] (a b : α) (l : List α) : Decidable (Before a b l) :=
  inferInstanceAs (Decidable ([a, b].Sublist l))

/-- What two lists have in common stands in the same order in both. -/
def Agree {α : Type} (l l' : List α) : Prop :=
  ∀ a b, a ∈ l → b ∈ l → a ∈ l' → b ∈ l' → (Before a b l ↔ Before a b l')

section
variable {α : Type} {a b : α} {l l' m : List α}

theorem before_or_before (ha : a ∈ l) (hb : b ∈ l) (hne : a ≠ b) : Before a b l ∨ Before b a l := by
  induction l with
  | nil => cases ha
  | cons c l ih =>
    rcases List.mem_cons.1 ha with rfl | ha'
    · have hb' : b ∈ l := (List.mem_cons.1 hb).resolve_left hne.symm
      exact .inl ((List.singleton_sublist.2 hb').cons_cons a)
    · rcases List.mem_cons.1 hb with rfl | hb'
      · exact .inr ((List.singleton_sublist.2 ha').cons_cons b)
      · exact (ih ha' hb').imp (.cons c) (.cons c)

theorem Before.asymm (hl : l.Nodup) (h : Before a b l) : ¬Before b a l := by
  induction l with
  | nil => cases h
  | cons c l ih =>
    obtain ⟨hc, hl⟩ := List.nodup_cons.1 hl
    intro h'
    cases h with
    | cons _ h =>
      cases h' with
      | cons _ h' => exact ih hl h h'
      | cons_cons _ h' => exact hc (h.subset (by simp))
    | cons_cons _ h =>
      cases h' with
      | cons _ h' => exact hc (h'.subset (by simp))
      | cons_cons _ h' => exact hc (List.singleton_sublist.1 h)

/-- A sublist of a list without duplicates does not contradict it. -/
theorem Before.of_sublist (hm : m.Nodup) (hl : l.Sublist m) (h : Before a b m) (ha : a ∈ l)
    (hb : b ∈ l) : Before a b l := by
  have hne : a ≠ b := by
    rintro rfl
    exact List.nodup_iff_sublist.1 hm a h
  rcases before_or_before ha hb hne with h' | h'
  · exact h'
  · exact absurd (h'.trans hl) (h.asymm hm)

/-- Sublists of one list without duplicates agree. -/
theorem agree_of_sublist (hm : m.Nodup) (hl : l.Sublist m) (hl' : l'.Sublist m) : Agree l l' :=
  fun _ _ ha hb ha' hb' => ⟨fun h => .of_sublist hm hl' (h.trans hl) ha' hb',
    fun h => .of_sublist hm hl (h.trans hl') ha hb⟩

end

/-! ## Requests -/

/-- The mode that counts where a mode is stored. -/
def modeOf (mode : Value) : OrderMode :=
  match mode with
  | .text code => (OrderMode.ofCode? code).getD .sequential
  | _ => .sequential

theorem reads_coerceMode (mode : Value) : (coerceMode mode).Reads fun _ => .ok (modeOf mode) := by
  have hunknown : (coerceMode.unknown mode).Reads fun _ => .ok .sequential :=
    (Reads.log _).bind fun _ => .pure _
  cases mode with
  | text code =>
    rw [coerceMode, modeOf]
    cases OrderMode.ofCode? code with
    | none => exact hunknown
    | some m => exact .pure m
  | _ => exact hunknown

/-- A request for an order, as it is made: its mode is what is stored. -/
structure Request where
  weighting : Weighting
  scope : String
  owner : String
  mode : Value
  items : List Sortable

namespace Request

variable (q : Request)

/-- The requested ids, in authored order. -/
def ids : List Id := q.items.map Sortable.id

/-- The mode that counts. -/
def orderMode : OrderMode := modeOf q.mode

/-- The key under which the order is kept. -/
def key : String := cacheKey q.scope q.owner q.orderMode

/-- The work of the request. -/
def answer : Flow (List Id) := do
  arrange q.weighting q.scope q.owner (← coerceMode q.mode) q.items

/-- A request without duplicates whose ids are texts, whose groups can be told apart and whose
weights are numbers. -/
structure Proper : Prop where
  texts : ∀ id ∈ q.ids, id.isText = true
  nodup : q.ids.Nodup
  groups : ∀ i ∈ q.items, i.groupKey.isCompound = false
  weights : ∀ i ∈ q.items, ∃ w, weightOf i = .ok w

/-- A request for an order of things without groups and weights. -/
def plain (owner mode : String) (ids : List String) : Request :=
  ⟨.sampled, "option", owner, .text mode, ids.map fun id => .plain (.text id)⟩

theorem ids_plain (owner mode : String) (ids : List String) :
    (plain owner mode ids).ids = ids.map .text := by
  simp [plain, Request.ids, Sortable.plain]

theorem proper_plain {ids : List String} (h : ids.Nodup) (owner mode : String) :
    (plain owner mode ids).Proper where
  texts := by
    rw [ids_plain]
    intro id hid
    obtain ⟨_, -, rfl⟩ := List.mem_map.1 hid
    rfl
  nodup := by
    rw [ids_plain]
    exact h.map fun _ _ heq => Value.text.inj heq
  groups := by
    intro i hi
    obtain ⟨_, -, rfl⟩ := List.mem_map.1 hi
    rfl
  weights := by
    intro i hi
    obtain ⟨_, -, rfl⟩ := List.mem_map.1 hi
    exact ⟨_, rfl⟩

variable {q}

theorem Proper.keyed (h : q.Proper) : Keyed q.ids :=
  fun id hid => Value.isCompound_of_isText (h.texts id hid)

/-- A request does what arranging its items by the mode that counts does, on a desk with the same
session. -/
theorem answer_perform (q : Request) (d : Desk) : ∃ d₁ : Desk, d₁.session = d.session ∧
    q.answer.perform d =
      (arrange q.weighting q.scope q.owner q.orderMode q.items).perform d₁ := by
  obtain ⟨hresult, hsession⟩ := reads_coerceMode q.mode d
  rcases hmode : (coerceMode q.mode).perform d with ⟨mode, d₁⟩
  rw [hmode] at hresult hsession
  cases hresult
  exact ⟨d₁, hsession, by rw [answer, perform_bind, hmode]; rfl⟩

theorem answer_arranged {s : Session} {g : Generator} {events : List Event} {reply : List Id}
    {d : Desk} (h : q.answer.perform ⟨s, g, events⟩ = (.ok reply, d)) :
    Arranged q.scope q.owner q.orderMode q.items s reply d.session := by
  obtain ⟨d₁, hsession, hanswer⟩ := q.answer_perform ⟨s, g, events⟩
  exact arrange_ensures _ _ _ _ _ s d₁ reply d hsession (hanswer.symm.trans h)

end Request

/-! ## Every request has a result -/

variable {items : List Sortable}

theorem exists_withSortKeys (h : ∀ i ∈ items, ∃ w, weightOf i = .ok w) (g : Generator) :
    ∃ keys g', withSortKeys items g = (.ok keys, g') := by
  induction items generalizing g with
  | nil => exact ⟨_, _, rfl⟩
  | cons i r ih =>
    obtain ⟨w, hw⟩ := h i (.head _)
    have hr := ih fun j hj => h j (.tail _ hj)
    rw [withSortKeys, hw]
    dsimp only
    split
    · obtain ⟨keys, g', hkeys⟩ := hr g
      exact ⟨_, g', by rw [hkeys]; rfl⟩
    · obtain ⟨keys, g', hkeys⟩ := hr g.unit.2
      exact ⟨_, g', by rw [hkeys]; rfl⟩

/-- An order can be drawn of items whose groups can be told apart and whose weights are numbers. -/
theorem exists_fresh (hgroups : ∀ i ∈ items, i.groupKey.isCompound = false)
    (hweights : ∀ i ∈ items, ∃ w, weightOf i = .ok w) (weighting : Weighting) (mode : OrderMode)
    (g : Generator) : ∃ ids g', fresh weighting mode items g = (.ok ids, g') := by
  have hdemand : demandGroups items = .ok () :=
    demandKeys_eq_ok_iff.2 <| List.forall_mem_map.2 fun i hi => hgroups i (List.mem_filter.1 hi).1
  cases mode with
  | sequential => exact ⟨_, _, rfl⟩
  | random => exact ⟨_, _, rfl⟩
  | groupRandom => exact ⟨_, _, by rw [fresh, hdemand]⟩
  | weighted =>
    cases weighting with
    | shuffled => exact ⟨_, _, rfl⟩
    | sampled =>
      obtain ⟨keys, g', hkeys⟩ := exists_withSortKeys hweights g
      exact ⟨_, _, by rw [fresh, weighted, hkeys]⟩

/-! ## What one call does -/

/-- A request that was answered: its reply, and the kept orders before and after it. -/
structure Call where
  request : Request
  reply : List Id
  before : Dict (List Id)
  after : Dict (List Id)

/-- What a call does by itself. -/
structure Call.Lawful (c : Call) : Prop where
  /-- The reply has the requested ids. -/
  perm : c.reply.Perm c.request.ids
  /-- No kept order has duplicates. -/
  nodup : ∀ key order, c.after.get? key = some order → order.Nodup
  /-- An order that was kept is kept still; at most something is put behind it. -/
  grows : ∀ key kept, c.before.get? key = some kept →
    ∃ more, c.after.get? key = some (kept ++ more)
  /-- The authored order is the order of the request, and nothing is kept of it. -/
  sequential : c.request.orderMode = .sequential → c.reply = c.request.ids ∧ c.after = c.before
  /-- The requested ids that a kept order does not have follow those it has, in authored order. -/
  reused : c.request.orderMode ≠ .sequential → ∀ kept, c.before.get? c.request.key = some kept →
    c.reply = kept.filter (· ∈ c.request.ids) ++ c.request.ids.filter (· ∉ kept)

/-- The order under a key is what proper requests lead to, if there is one: texts without
duplicates. -/
def TidyAt (orders : Dict (List Id)) (key : String) : Prop :=
  ∀ order, orders.get? key = some order → (∀ id ∈ order, id.isText = true) ∧ order.Nodup

/-- All orders are what proper requests lead to. -/
def Tidy (orders : Dict (List Id)) : Prop := ∀ key, TidyAt orders key

variable {kept ids : List Id}

theorem unseen_texts (h : ∀ id ∈ ids, id.isText = true) :
    unseen kept ids = ids.filter (· ∉ kept) := by
  refine List.filter_congr fun id hid => ?_
  rw [Bool.eq_iff_iff]
  simpa using (Value.isAmong_iff_mem_of_isText (h id hid)).not

theorem restricted_texts (hids : ∀ id ∈ ids, id.isText = true)
    (hkept : ∀ id ∈ kept, id.isText = true) :
    restricted kept ids = kept.filter (· ∈ ids) ++ ids.filter (· ∉ kept) := by
  rw [restricted, unseen_texts hids]
  congr 1
  refine List.filter_congr fun id hid => ?_
  rw [Bool.eq_iff_iff, Value.isAmong_iff_mem_of_isText (hkept id hid), decide_eq_true_iff]

/-- A kept order restricted to what is requested, with what it does not have behind it, has what is
requested. -/
theorem filter_append_filter_perm (hids : ids.Nodup) (hkept : kept.Nodup) :
    (kept.filter (· ∈ ids) ++ ids.filter (· ∉ kept)).Perm ids := by
  have hcommon : (kept.filter (· ∈ ids)).Perm (ids.filter (· ∈ kept)) := by
    refine (List.perm_ext_iff_of_nodup (hkept.filter _) (hids.filter _)).2 fun id => ?_
    simp [and_comm]
  have hall := List.filter_append_perm (· ∈ kept) ids
  simp only [← decide_not] at hall
  exact (hcommon.append_right _).trans hall

namespace Arranged

section
variable {scope owner : String} {mode : OrderMode} {s t : Session} {reply : List Id}
  (h : Arranged scope owner mode items s reply t)
include h

/-- A request touches its own order only. -/
theorem elsewhere {key : String} (hkey : key ≠ cacheKey scope owner mode) :
    t.orders.get? key = s.orders.get? key := by
  cases h with
  | authored _ => rfl
  | drawn _ _ _ | reused _ _ _ => rw [Session.keepOrder, Dict.get?_set, if_neg hkey]

variable (htexts : ∀ id ∈ items.map Sortable.id, id.isText = true)
  (hnodup : (items.map Sortable.id).Nodup) (hs : TidyAt s.orders (cacheKey scope owner mode))
include htexts hnodup hs

/-- The reply to a request for different texts has the requested ids. -/
theorem perm : reply.Perm (items.map Sortable.id) := by
  cases h with
  | authored _ => exact .refl _
  | drawn _ _ hperm => exact hperm
  | reused _ hkept _ =>
    obtain ⟨hkeptTexts, hkeptNodup⟩ := hs _ hkept
    rw [restricted_texts htexts hkeptTexts]
    exact filter_append_filter_perm hnodup hkeptNodup

/-- A request for different texts leaves its order tidy. -/
theorem tidyAt : TidyAt t.orders (cacheKey scope owner mode) := by
  cases h with
  | authored _ => exact hs
  | drawn _ _ hperm =>
    intro order horder
    rw [Session.keepOrder, Dict.get?_set, if_pos rfl] at horder
    cases horder
    exact ⟨fun id hid => htexts id (hperm.mem_iff.1 hid), hperm.nodup_iff.2 hnodup⟩
  | @reused kept _ hkept _ =>
    obtain ⟨hkeptTexts, hkeptNodup⟩ := hs _ hkept
    intro order horder
    rw [Session.keepOrder, Dict.get?_set, if_pos rfl] at horder
    cases horder
    constructor
    · intro id hid
      rcases List.mem_append.1 hid with hid | hid
      · exact hkeptTexts id hid
      · exact htexts id (List.mem_filter.1 hid).1
    · refine List.nodup_append'.2 ⟨hkeptNodup, hnodup.filter _, fun id hid hnew => ?_⟩
      have hnew : id ∈ unseen kept (items.map Sortable.id) := hnew
      rw [unseen_texts htexts] at hnew
      simp [hid] at hnew

end

variable {q : Request} {s t : Session} {reply : List Id}

theorem tidy (h : Arranged q.scope q.owner q.orderMode q.items s reply t) (hq : q.Proper)
    (hs : Tidy s.orders) : Tidy t.orders := by
  intro key
  by_cases hkey : key = q.key
  · subst hkey
    exact h.tidyAt hq.texts hq.nodup (hs _)
  · intro order horder
    rw [h.elsewhere hkey] at horder
    exact hs key order horder

/-- A call on tidy orders keeps to the contract. -/
theorem lawful (h : Arranged q.scope q.owner q.orderMode q.items s reply t) (hq : q.Proper)
    (hs : Tidy s.orders) : (⟨q, reply, s.orders, t.orders⟩ : Call).Lawful where
  perm := h.perm hq.texts hq.nodup (hs _)
  nodup := fun key order horder => (h.tidy hq hs key order horder).2
  grows := by
    intro key kept hkept
    obtain ⟨_, horder, more, rfl, -⟩ := h.grown hq.keyed key kept hkept
    exact ⟨more, horder⟩
  sequential := by
    intro hmode
    cases h with
    | authored _ => exact ⟨rfl, rfl⟩
    | drawn hne _ _ => exact absurd hmode hne
    | reused hne _ _ => exact absurd hmode hne
  reused := by
    intro hmode kept hkept
    cases h with
    | authored hseq => exact absurd hseq hmode
    | drawn _ hnone _ => cases hnone.symm.trans hkept
    | reused _ hkept' _ =>
      cases hkept'.symm.trans hkept
      exact restricted_texts hq.texts (hs _ _ hkept').1

end Arranged

/-- A request for what can be looked for has a result where that is true of the kept order as well,
whatever the generator. -/
theorem exists_arrange_of_keyed {weighting : Weighting} {scope owner : String} {mode : OrderMode}
    {d : Desk} (hkeyed : Keyed (items.map Sortable.id))
    (hgroups : ∀ i ∈ items, i.groupKey.isCompound = false)
    (hweights : ∀ i ∈ items, ∃ w, weightOf i = .ok w)
    (horder : ∀ kept, d.session.orders.get? (cacheKey scope owner mode) = some kept → Keyed kept) :
    ∃ reply d', (arrange weighting scope owner mode items).perform d = (.ok reply, d') := by
  by_cases hmode : mode = .sequential
  · exact ⟨_, d, by rw [hmode]; rfl⟩
  cases hkept : d.session.orders.get? (cacheKey scope owner mode) with
  | some kept =>
    refine ⟨_, _, arrange_of_kept hmode hkept fun id hid => ?_⟩
    rcases List.mem_append.1 hid with hid | hid
    · exact hkeyed id hid
    · exact horder kept hkept id hid
  | none =>
    obtain ⟨ids, g, hfresh⟩ := exists_fresh hgroups hweights weighting mode d.generator
    exact ⟨_, _, arrange_of_absent hmode hkept hfresh⟩

/-- A proper request has a result where the orders are tidy, whatever the generator. -/
theorem exists_arrange {q : Request} (hq : q.Proper) {d : Desk} (hd : Tidy d.session.orders) :
    ∃ reply d', (arrange q.weighting q.scope q.owner q.orderMode q.items).perform d =
      (.ok reply, d') :=
  exists_arrange_of_keyed hq.keyed hq.groups hq.weights fun kept hkept id hid =>
    Value.isCompound_of_isText ((hd _ kept hkept).1 id hid)

/-! ## Runs -/

/-- A run of requests, each with a generator of its own, from a session without orders. -/
inductive Run : List Call → Session → Prop
  | start {s : Session} : s.orders = ∅ → Run [] s
  | call {calls : List Call} {s : Session} {q : Request} {g : Generator} {events : List Event}
      {reply : List Id} {d : Desk} : Run calls s → q.Proper →
      q.answer.perform ⟨s, g, events⟩ = (.ok reply, d) →
      Run (calls ++ [⟨q, reply, s.orders, d.session.orders⟩]) d.session

/-- What a session knows of a call: the order that is kept now has the reply in its order. -/
def Remembers (s : Session) (c : Call) : Prop :=
  c.request.orderMode ≠ .sequential →
    ∃ order, s.orders.get? c.request.key = some order ∧ c.reply.Sublist order

theorem Remembers.grown {s t : Session} {c : Call} (h : Remembers s c)
    (hgrown : Grown s.orders t.orders) : Remembers t c := by
  intro hmode
  obtain ⟨kept, hkept, hreply⟩ := h hmode
  obtain ⟨_, horder, more, rfl, -⟩ := hgrown _ kept hkept
  exact ⟨_, horder, hreply.trans (List.sublist_append_left _ _)⟩

namespace Run

variable {calls : List Call} {s : Session}

theorem tidy (h : Run calls s) : Tidy s.orders := by
  induction h with
  | start hempty =>
    intro key order horder
    rw [hempty, Dict.get?_empty] at horder
    cases horder
  | call _ hq hanswer ih => exact (Request.answer_arranged hanswer).tidy hq ih

theorem lawful (h : Run calls s) : ∀ c ∈ calls, c.Lawful := by
  induction h with
  | start _ => intro c hc; cases hc
  | call hrun hq hanswer ih =>
    intro c hc
    rcases List.mem_append.1 hc with hc | hc
    · exact ih c hc
    · cases List.mem_singleton.1 hc
      exact (Request.answer_arranged hanswer).lawful hq hrun.tidy

theorem remembers (h : Run calls s) : ∀ c ∈ calls, Remembers s c := by
  induction h with
  | start _ => intro c hc; cases hc
  | call _ hq hanswer ih =>
    have harranged := Request.answer_arranged hanswer
    intro c hc
    rcases List.mem_append.1 hc with hc | hc
    · exact (ih c hc).grown (harranged.grown hq.keyed)
    · cases List.mem_singleton.1 hc
      intro hmode
      obtain ⟨order, horder, -, hreply, -⟩ := harranged.settled hmode
      exact ⟨order, horder, hreply ▸ List.filter_sublist⟩

/-- A proper request has a result after any run, whatever the generator. -/
theorem exists_answer (h : Run calls s) {q : Request} (hq : q.Proper) (g : Generator)
    (events : List Event) : ∃ reply d, q.answer.perform ⟨s, g, events⟩ = (.ok reply, d) := by
  obtain ⟨d₁, hsession, hanswer⟩ := q.answer_perform ⟨s, g, events⟩
  rw [hanswer]
  exact exists_arrange hq (hsession ▸ h.tidy)

/-- Calls for one order agree. -/
theorem agree (h : Run calls s) {c c' : Call} (hc : c ∈ calls) (hc' : c' ∈ calls)
    (hkey : c.request.key = c'.request.key) (hmode : c.request.orderMode ≠ .sequential)
    (hmode' : c'.request.orderMode ≠ .sequential) : Agree c.reply c'.reply := by
  obtain ⟨order, horder, hreply⟩ := h.remembers c hc hmode
  obtain ⟨order', horder', hreply'⟩ := h.remembers c' hc' hmode'
  rw [← hkey, horder] at horder'
  cases horder'
  exact agree_of_sublist (h.tidy _ order horder).2 hreply hreply'

end Run

/-- Over every run, proper requests have results, every call keeps to the contract, and calls with
the same scope, owner and mode agree on the order of what both return, except for the authored
order. -/
theorem run_stable {calls : List Call} {s : Session} (h : Run calls s) :
    (∀ q : Request, q.Proper → ∀ g events, ∃ reply d,
      q.answer.perform ⟨s, g, events⟩ = (.ok reply, d)) ∧
    (∀ c ∈ calls, c.Lawful) ∧
    (∀ c ∈ calls, ∀ c' ∈ calls, c.request.scope = c'.request.scope →
      c.request.owner = c'.request.owner → c.request.orderMode = c'.request.orderMode →
      c.request.orderMode ≠ .sequential → Agree c.reply c'.reply) := by
  refine ⟨fun q hq g events => h.exists_answer hq g events, h.lawful, ?_⟩
  intro c hc c' hc' hscope howner hmode hne
  refine h.agree hc hc' ?_ hne (hmode ▸ hne)
  rw [Request.key, Request.key, hscope, howner, hmode]

/-- Three things are shuffled; later one of them is hidden and a new one comes first. -/
theorem run_stable_hidden_and_new :
    let s₀ : Session := .new (.text "s1") (.text "survey") ∅
    let q₁ : Request := .plain "q1" "RANDOM" ["a", "b", "c"]
    let q₂ : Request := .plain "q1" "RANDOM" ["d", "a", "c"]
    let d₁ := (q₁.answer.perform ⟨s₀, .ofScript [0, 700], []⟩).2
    let d₂ := (q₂.answer.perform ⟨d₁.session, .ofScript [0], []⟩).2
    let c₁ : Call := ⟨q₁, ["c", "b", "a"].map .text, s₀.orders, d₁.session.orders⟩
    let c₂ : Call := ⟨q₂, ["c", "a", "d"].map .text, d₁.session.orders, d₂.session.orders⟩
    Run [c₁, c₂] d₂.session ∧ c₂.Lawful ∧ Agree c₁.reply c₂.reply := by
  intro s₀ q₁ q₂ d₁ d₂ c₁ c₂
  have hfirst : q₁.answer.perform ⟨s₀, .ofScript [0, 700], []⟩ = (.ok c₁.reply, d₁) :=
    Prod.ext (by decide +kernel) rfl
  have hsecond : q₂.answer.perform ⟨d₁.session, .ofScript [0], []⟩ = (.ok c₂.reply, d₂) :=
    Prod.ext (by decide +kernel) rfl
  have hrun : Run [c₁, c₂] d₂.session :=
    .call (.call (.start rfl) (Request.proper_plain (by decide) _ _) hfirst)
      (Request.proper_plain (by decide) _ _) hsecond
  obtain ⟨-, hlawful, hagree⟩ := run_stable hrun
  exact ⟨hrun, hlawful c₂ (by simp), hagree c₁ (by simp) c₂ (by simp) rfl rfl rfl (by decide)⟩

/-- Calls for the authored order follow the request: two calls with the same scope, owner and mode
need not agree. -/
theorem authored_orders_may_differ :
    ¬∀ calls s, Run calls s → ∀ c ∈ calls, ∀ c' ∈ calls, c.request.scope = c'.request.scope →
      c.request.owner = c'.request.owner → c.request.mode = c'.request.mode →
      Agree c.reply c'.reply := by
  intro h
  let s : Session := .new (.text "s1") (.text "survey") ∅
  let q₁ : Request := .plain "q1" "SEQUENTIAL" ["a", "b"]
  let q₂ : Request := .plain "q1" "SEQUENTIAL" ["b", "a"]
  let c₁ : Call := ⟨q₁, q₁.ids, ∅, ∅⟩
  let c₂ : Call := ⟨q₂, q₂.ids, ∅, ∅⟩
  have hfirst : q₁.answer.perform ⟨s, default, []⟩ = (.ok q₁.ids, ⟨s, default, []⟩) := rfl
  have hsecond : q₂.answer.perform ⟨s, default, []⟩ = (.ok q₂.ids, ⟨s, default, []⟩) := rfl
  have hrun : Run [c₁, c₂] s :=
    .call (.call (.start rfl) (Request.proper_plain (by decide) _ _) hfirst)
      (Request.proper_plain (by decide) _ _) hsecond
  have hagree := h _ _ hrun c₁ (by simp) c₂ (by simp) rfl rfl rfl
  have hbefore : Before (.text "a") (.text "b") c₂.reply :=
    (hagree (.text "a") (.text "b") (by decide) (by decide) (by decide) (by decide)).1 (by decide)
  exact absurd hbefore (by decide)

end Order

end Questionnaire
