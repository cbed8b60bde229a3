import Questionnaire.Proofs.Page.Growth
import Questionnaire.Proofs.Page.Rendering

/-!
# Rendering settles

Work settles if doing it again gives the same result and changes nothing, in every session that has
grown from the one it left behind (`Flow.Settles`): the answers, the embedded data and the plans are
the same, and the orders have at most been continued (`Session.Grown`).

Putting things in order settles because a kept order is never changed, and all other parts of
rendering only read what stays the same. So rendering a page settles (`Renderer.settles_page`).
-/

namespace Questionnaire

/-- A later state of a session: nothing that rendering reads has changed, and the orders have at
most been continued. -/
structure Session.Grown (s t : Session) : Prop where
  responses : t.responses = s.responses
  embedded : t.embedded = s.embedded
  plans : t.plans = s.plans
  orders : Order.Grown s.orders t.orders

namespace Session.Grown

variable {s t u : Session}

theorem refl (s : Session) : s.Grown s := ⟨rfl, rfl, rfl, .refl _⟩

theorem trans (h : s.Grown t) (h' : t.Grown u) : s.Grown u where
  responses := h'.responses.trans h.responses
  embedded := h'.embedded.trans h.embedded
  plans := h'.plans.trans h.plans
  orders := h.orders.trans h'.orders

theorem of_eq (h : t = s) : s.Grown t := h ▸ refl s

theorem context (h : s.Grown t) (survey : Survey) : t.context survey = s.context survey := by
  rw [Session.context, Session.context, h.responses, h.embedded]

end Session.Grown

namespace Flow

variable {α β : Type} {f : Flow α} {k : α → Flow β}

/-- Work that, once it has a result, has the same result and changes nothing in every later state of
the session. -/
def Settles (f : Flow α) : Prop :=
  ∀ d a d', f.perform d = (.ok a, d') → d.session.Grown d'.session ∧
    ∀ e, d'.session.Grown e.session → ∃ e', f.perform e = (.ok a, e') ∧ e'.session = e.session

namespace Settles

/-- Work that only reads what stays the same settles. -/
theorem of_reads {r : Session → Except Fault α} (h : f.Reads r)
    (hr : ∀ s t, s.Grown t → r t = r s) : f.Settles := by
  intro d a d' hperform
  obtain ⟨hresult, hsession⟩ := h d
  rw [hperform] at hresult hsession
  refine ⟨.of_eq hsession, fun e hgrown => ?_⟩
  rw [hsession] at hgrown
  obtain ⟨hagain, hsame⟩ := h e
  refine ⟨(f.perform e).2, Prod.ext ?_ rfl, hsame⟩
  rw [hagain, hr _ _ hgrown, ← hresult]

theorem pure (a : α) : (pure a : Flow α).Settles := of_reads (.pure a) fun _ _ _ => rfl

theorem throw (e : Fault) : (throw e : Flow α).Settles := by
  intro d a d' h
  cases h

theorem logAll (es : List Event) : (logAll es).Settles := of_reads (.logAll es) fun _ _ _ => rfl

theorem ofResult (r : Except Fault α) : (ofResult r).Settles :=
  of_reads (.ofResult r) fun _ _ _ => rfl

theorem demandKeys (ids : List Id) : (demandKeys ids).Settles := ofResult _

theorem demandComparable (l : List Value) : (demandComparable l).Settles := ofResult _

/-- Work in sequence settles; the second part may rely on what the first one ensures. -/
theorem bind_ensures {p : α → Prop} (hf : f.Settles)
    (hp : Ensures (fun _ => True) f fun a _ => p a) (hk : ∀ a, p a → (k a).Settles) :
    (f >>= k).Settles := by
  intro d b d' h
  obtain ⟨a, d₁, h₁, h₂⟩ := perform_bind_eq_ok h
  obtain ⟨hgrown, hagain⟩ := hf d a d₁ h₁
  obtain ⟨hgrown', hagain'⟩ := hk a (hp d a d₁ trivial h₁) d₁ b d' h₂
  refine ⟨hgrown.trans hgrown', fun e he => ?_⟩
  obtain ⟨e₁, he₁, hsame⟩ := hagain e (hgrown'.trans he)
  obtain ⟨e', he', hsame'⟩ := hagain' e₁ (hsame ▸ he)
  exact ⟨e', by rw [perform_bind, he₁]; exact he', hsame'.trans hsame⟩

theorem bind (hf : f.Settles) (hk : ∀ a, (k a).Settles) : (f >>= k).Settles :=
  bind_ensures (p := fun _ => True) hf (fun _ _ _ _ _ => trivial) fun a _ => hk a

/-- Work that goes on with the session settles if it uses nothing of it that may change. -/
theorem bind_session {k : Session → Flow β} (hk : ∀ s, (k s).Settles)
    (hsame : ∀ s t, s.Grown t → k t = k s) : (Flow.session >>= k).Settles := by
  intro d b d' h
  rw [perform_bind, perform_session] at h
  obtain ⟨hgrown, hagain⟩ := hk d.session d b d' h
  refine ⟨hgrown, fun e he => ?_⟩
  obtain ⟨e', he', hsame'⟩ := hagain e he
  refine ⟨e', ?_, hsame'⟩
  rw [perform_bind, perform_session]
  dsimp only
  rw [hsame _ _ (hgrown.trans he)]
  exact he'

theorem ite {c : Bool} {g : Flow α} (hf : f.Settles) (hg : g.Settles) :
    (if c then f else g).Settles := by
  cases c with
  | true => exact hf
  | false => exact hg

theorem mapM {g : β → Flow α} (hg : ∀ b, (g b).Settles) : ∀ l : List β, (l.mapM g).Settles
  | [] => pure _
  | b :: r => by
    rw [List.mapM_cons]
    exact (hg b).bind fun _ => (mapM hg r).bind fun _ => pure _

theorem keep {test : α → Flow Bool} (h : ∀ a, (test a).Settles) :
    ∀ l : List α, (Renderer.keep test l).Settles
  | [] => pure _
  | a :: r => (h a).bind fun _ => (keep h r).bind fun _ => pure _

end Settles

end Flow

open Flow

/-! ## Orders -/

namespace Order

variable {α : Type} {weighting : Weighting} {scope owner : String} {mode : OrderMode}
  {items : List Sortable}

/-- Putting things in order leaves a later state of the session. -/
theorem Arranged.session_grown {s t : Session} {ids : List Id}
    (h : Arranged scope owner mode items s ids t) (hkeyed : Keyed (items.map Sortable.id)) :
    s.Grown t := by
  have horders := h.grown hkeyed
  cases h with
  | authored _ => exact .refl _
  | drawn _ _ _ | reused _ _ _ => exact ⟨rfl, rfl, rfl, horders⟩

/-- Putting things in order settles if they can be looked for. -/
theorem settles_arrange (hkeyed : Keyed (items.map Sortable.id)) :
    (arrange weighting scope owner mode items).Settles := by
  intro d ids d' h
  have harranged := arrange_ensures weighting scope owner mode items d.session d ids d' rfl h
  exact ⟨harranged.session_grown hkeyed, fun e he => harranged.again hkeyed he.orders⟩

/-- Putting things in order and going on settles if going on requires that they can be looked
for. -/
theorem settles_arrange_bind {ids : List Id} (hids : items.map Sortable.id = ids)
    {k : List Id → Flow α} (hk : ∀ order, (k order).Settles) :
    (do
      let order ← arrange weighting scope owner mode items
      Flow.demandKeys ids
      k order).Settles := by
  intro d a d' h
  -- The demand comes after the arranging, so it holds of work that had a result only.
  have hkeyed : Keyed (items.map Sortable.id) := by
    obtain ⟨order, d₁, -, h₁⟩ := perform_bind_eq_ok h
    obtain ⟨u, d₂, hdemand, -⟩ := perform_bind_eq_ok h₁
    rw [hids]
    exact (Ensures.demandKeys (P := fun _ => True) d₁ u d₂ trivial hdemand).2
  have hrest (order : List Id) : (Flow.demandKeys ids >>= fun _ => k order).Settles :=
    (Settles.demandKeys ids).bind fun _ => hk order
  exact (settles_arrange hkeyed).bind hrest d a d' h

end Order

/-! ## Pages -/

theorem Context.settles_shows (ctx : Context) (quiet : Bool) (criterion : Option Criterion) :
    (ctx.shows quiet criterion).Settles :=
  (Settles.logAll _).bind fun _ => .ofResult _

theorem Context.settles_showsChoice (ctx : Context) (quiet : Bool) (c : Choice)
    (question : Option Question) : (ctx.showsChoice quiet c question).Settles := by
  refine (settles_shows ctx quiet _).bind fun _ => .ite ?_ (.pure _)
  split
  · exact settles_shows ctx quiet _
  · exact .pure _

/-- The choices that a respondent is offered depend on the answers only. -/
theorem Carried.settles_choicesOf (q : Question) (survey : Survey) :
    (choicesOf q survey).Settles := by
  refine .bind_session (fun s => ?_) fun s t h => by rw [h.responses]
  exact (Settles.demandComparable _).bind fun _ => (Settles.ofResult _).bind fun _ =>
    (Settles.logAll _).bind fun _ => .pure _

namespace Renderer

variable (r : Renderer)

theorem settles_shows (criterion : Option Criterion) : (r.shows criterion).Settles :=
  .bind_session (fun _ => Context.settles_shows _ _ _) fun _ _ h => by rw [h.context]

/-- The wording of a text depends on the answers and the embedded data only. -/
theorem settles_wording (text : Value) : (r.wording text).Settles :=
  .bind_session (fun _ => .ofResult _) fun _ _ h => by rw [h.responses, h.embedded]

theorem settles_choice (c : Choice) : (r.choice c).Settles :=
  (settles_wording r c.label).bind fun _ => .pure _

theorem settles_question (q : Question) : (r.question q).Settles := by
  refine .bind_session (fun s => ?_) fun s t h => by rw [h.context]
  refine (Carried.settles_choicesOf q r.survey).bind fun choices => ?_
  refine (Settles.keep (fun c => Context.settles_showsChoice _ _ c _) choices).bind fun shown => ?_
  have hids : (shown.map fun c => (⟨c.id, c.groupKey, c.weight⟩ : Sortable)).map Sortable.id =
      shown.map Choice.id := List.map_map
  refine Order.settles_arrange_bind hids fun ids => ?_
  refine (settles_wording r q.text).bind fun _ => ?_
  exact (Settles.mapM (settles_choice r) _).bind fun _ => .pure _

theorem settles_questions (owner : String) (mode : OrderMode) (qs : List Question) :
    (r.questions owner mode qs).Settles := by
  refine (Settles.keep (fun q : Question => settles_shows r q.visibleIf) qs).bind fun shown => ?_
  have hids : (shown.map fun q => Sortable.plain q.id).map Sortable.id = shown.map Question.id :=
    List.map_map
  exact Order.settles_arrange_bind hids fun ids => .mapM (settles_question r) _

theorem settles_group? (onPage : List Question) (g : Group) : (r.group? onPage g).Settles := by
  refine (settles_shows r g.visibleIf).bind fun _ => .ite ?_ (.pure _)
  refine (settles_wording r g.title).bind fun _ => ?_
  exact (settles_questions r _ _ _).bind fun _ => .pure _

theorem settles_groups (p : Page) : (r.groups p).Settles := by
  refine (Settles.demandComparable _).bind fun _ => (Settles.demandComparable _).bind fun _ => ?_
  refine (Settles.mapM (settles_group? r _) _).bind fun _ => (Settles.demandKeys _).bind fun _ => ?_
  exact .ite (.pure _) <| (settles_questions r _ _ _).bind fun _ => .pure _

/-- A group as shown has the id of the authored group. -/
theorem group?_id (onPage : List Question) (g : Group) :
    Ensures (fun _ => True) (r.group? onPage g) fun o _ => ∀ shown, o = some shown →
      shown.id = g.id := by
  refine .bind (keeps_shows r _) fun _ =>
    .ite (fun _ => ?_) fun _ => .pure fun _ _ _ h => by cases h
  refine .bind (keeps_wording r _) fun _ => ?_
  refine .bind (Q := fun _ _ => True) (fun _ _ _ _ _ => trivial) fun _ => .pure fun _ _ _ h => ?_
  cases h
  rfl

/-- The groups of a page as shown can be looked for. -/
theorem groups_keyed (p : Page) : Ensures (fun _ => True) (r.groups p) fun groups _ =>
    Order.Keyed (groups.map RenderedGroup.id) := by
  refine .bind Keeps.demandComparable fun _ => .bind Keeps.demandComparable fun _ => ?_
  refine .bind (Ensures.mapM fun g _ => group?_id r _ g) fun found => ?_
  refine .given (fun _ h => h) fun hfound => ?_
  refine .bind Ensures.demandKeys fun _ => .given (fun _ h => h.2) fun hkeys => ?_
  have hauthored : ∀ g ∈ found.filterMap id, g.id.isCompound = false := by
    intro g hg
    obtain ⟨o, ho, rfl⟩ := List.mem_filterMap.1 hg
    obtain ⟨authored, hmem, hid⟩ := hfound _ ho
    rw [hid g rfl]
    exact hkeys _ (List.mem_append_left _ (List.mem_map_of_mem hmem))
  refine .ite (fun _ => .pure fun _ _ => ?_) fun _ => ?_
  · rw [Order.Keyed, List.forall_mem_map]
    exact hauthored
  · refine .bind (Q := fun _ _ => True) (fun _ _ _ _ _ => trivial) fun _ => .pure fun _ _ => ?_
    rw [Order.Keyed, List.forall_mem_map]
    intro g hg
    rcases List.mem_append.1 hg with hg | hg
    · exact hauthored g hg
    · rw [List.mem_singleton.1 hg]
      rfl

/-- Rendering a page settles. -/
theorem settles_page (pageId : Id) : (r.page pageId).Settles := by
  unfold page
  split
  · exact .throw _
  · next p _ =>
    refine (settles_shows r p.visibleIf).bind fun _ => .ite ?_ ?_
    · refine (settles_groups r p).bind_ensures (groups_keyed r p) fun groups hkeyed => ?_
      have hitems : Order.Keyed ((groups.map fun g => Sortable.plain g.id).map Sortable.id) := by
        rw [List.map_map]
        exact hkeyed
      refine (Order.settles_arrange hitems).bind fun _ => ?_
      exact (settles_wording r p.title).bind fun _ => .pure _
    · exact (settles_wording r p.title).bind fun _ => .pure _

end Renderer

end Questionnaire
