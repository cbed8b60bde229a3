import Questionnaire.Proofs.Page.Portrait
import Questionnaire.Proofs.Page.Settling

/-!
# Pages that can be rendered

Rendering fails only where something on the page cannot be read: a condition has no verdict, a token
has no text, indexes or weights cannot be compared, or an id cannot be kept. A page on which nothing
of that kind occurs is legible in a session (`Renderer.Legible`), and rendering it has a result
(`Renderer.yields_page`), whatever the ids and whatever the generator.
-/

namespace Questionnaire

open Flow Context

theorem demandComparable_of_areComparable {l : List Value} (h : Value.areComparable l = true) :
    demandComparable l = .ok () := by
  rw [demandComparable, if_pos h]

/-- What is kept under a key after a request for things that can be looked for can be looked for, if
it could be before. -/
theorem Order.Arranged.keyedAt {scope owner : String} {mode : OrderMode} {items : List Sortable}
    {s t : Session} {reply : List Id} (h : Arranged scope owner mode items s reply t)
    (hkeyed : Keyed (items.map Sortable.id))
    (hs : ∀ key order, s.orders.get? key = some order → Keyed order) :
    ∀ key order, t.orders.get? key = some order → Keyed order := by
  intro key order horder
  by_cases heq : key = cacheKey scope owner mode
  · by_cases hmode : mode = .sequential
    · cases h with
      | authored _ => exact hs key order horder
      | drawn hne _ _ | reused hne _ _ => exact absurd hmode hne
    · obtain ⟨kept, hkept, -, -, hall⟩ := h.settled hmode
      rw [heq, hkept] at horder
      cases horder
      exact hall hkeyed
  · rw [h.elsewhere heq] at horder
    exact hs key order horder

namespace Renderer

variable (r : Renderer) (s : Session)

/-! ## Legible parts -/

/-- Whether there is a verdict on a condition. -/
def Judged (criterion : Option Criterion) : Prop :=
  ∃ b, (s.context r.survey).verdict criterion = .ok b

/-- Whether the tokens of a text have values. -/
def Worded (text : Value) : Prop :=
  ∃ t, Wording.resolveAuthored text r.iteration r.survey.questions s.responses
    (some s.embedded) = .ok t

/-- A choice that can be shown for a question. -/
structure LegibleChoice (q : Question) (c : Choice) : Prop where
  id : c.id.isCompound = false
  judged : r.Judged s c.visibleIf
  groupJudged : ∀ g, choiceGroupOf? q c = some g → r.Judged s g.visibleIf
  worded : r.Worded s c.label
  groupKey : c.groupKey.isCompound = false
  weight : ∃ w, Order.weightOf ⟨c.id, c.groupKey, c.weight⟩ = .ok w

/-- A question that can be shown, with all its choices. -/
structure LegibleQuestion (q : Question) : Prop where
  id : q.id.isCompound = false
  judged : r.Judged s q.visibleIf
  worded : r.Worded s q.text
  indexes : Value.areComparable (q.choices.map Choice.index) = true
  carriable : Carried.demandCarriable q r.survey s.responses = .ok ()
  choices : ∀ c ∈ (Carried.allChoices q r.survey s.responses).1, r.LegibleChoice s q c

/-- A page on which everything can be shown. -/
structure Legible (p : Page) : Prop where
  id : p.id.isCompound = false
  judged : r.Judged s p.visibleIf
  worded : r.Worded s p.title
  questionIndexes : Value.areComparable ((r.survey.questionsOnPage p.id).map Question.index) = true
  groupIndexes : Value.areComparable ((r.survey.groupsOnPage p.id).map Group.index) = true
  groupIds : ∀ g ∈ r.survey.groupsOnPage p.id, g.id.isCompound = false
  groups : ∀ g ∈ r.survey.groupsOnPage p.id, r.Judged s g.visibleIf ∧ r.Worded s g.title
  groupNames : ∀ q ∈ r.survey.questionsOnPage p.id, q.groupId.isCompound = false
  questions : ∀ q ∈ r.survey.questionsOnPage p.id, r.LegibleQuestion s q

/-- A session while a page is rendered for another one: it has the data of the other one, and the
things in its orders can be looked for. -/
structure Serviceable (t : Session) : Prop where
  data : s.SameData t
  keyed : ∀ key order, t.orders.get? key = some order → Order.Keyed order

variable {r s}

/-! ## Work that has a result -/

theorem yields_ofResult {α : Type} {P : Session → Prop} {a : Except Fault α} {v : α}
    (h : a = .ok v) : Yields P (Flow.ofResult a) fun _ => P :=
  (Yields.ofOk h).mono (fun _ h => h) fun _ _ h => h.1

theorem yields_shows {criterion : Option Criterion} (h : r.Judged s criterion) :
    Yields (Serviceable s) (r.shows criterion) fun _ => Serviceable s := by
  refine .of_reads (r.reads_shows criterion) fun t ht => ?_
  rw [ht.data.context]
  exact h

theorem yields_wording {text : Value} (h : r.Worded s text) :
    Yields (Serviceable s) (r.wording text) fun _ => Serviceable s := by
  refine .of_reads (r.reads_wording text) fun t ht => ?_
  rw [ht.data.responses, ht.data.embedded]
  exact h

/-- Things that can be looked for are put in order. -/
theorem yields_arrange {scope owner : String} {mode : OrderMode} {items : List Sortable}
    (hkeyed : Order.Keyed (items.map Sortable.id))
    (hgroups : ∀ i ∈ items, i.groupKey.isCompound = false)
    (hweights : ∀ i ∈ items, ∃ w, Order.weightOf i = .ok w) :
    Yields (Serviceable s) (Order.arrange r.weighting scope owner mode items)
      fun _ => Serviceable s := by
  intro d hd
  obtain ⟨ids, d', hperform⟩ := Order.exists_arrange_of_keyed hkeyed hgroups hweights
    fun kept hkept => hd.keyed _ kept hkept
  have harranged := Order.arrange_ensures r.weighting scope owner mode items d.session d ids d' rfl
    hperform
  have hgrown := harranged.session_grown hkeyed
  refine ⟨ids, d', hperform, ⟨?_, ?_⟩, harranged.keyedAt hkeyed hd.keyed⟩
  · exact hgrown.responses.trans hd.data.responses
  · exact hgrown.embedded.trans hd.data.embedded

/-- Things without groups and weights that can be looked for are put in order. -/
theorem yields_arrange_plain {α : Type} {idOf : α → Id} {l : List α}
    (h : ∀ a ∈ l, (idOf a).isCompound = false) {scope owner : String} {mode : OrderMode} :
    Yields (Serviceable s)
      (Order.arrange r.weighting scope owner mode (l.map fun a => .plain (idOf a)))
      fun _ => Serviceable s := by
  refine yields_arrange ?_ ?_ ?_
  · rw [List.map_map, Order.Keyed, List.forall_mem_map]
    exact h
  · intro i hi
    obtain ⟨a, -, rfl⟩ := List.mem_map.1 hi
    rfl
  · intro i hi
    obtain ⟨a, -, rfl⟩ := List.mem_map.1 hi
    exact ⟨_, rfl⟩

theorem yields_demandKeys {α : Type} {idOf : α → Id} {l : List α}
    (h : ∀ a ∈ l, (idOf a).isCompound = false) :
    Yields (Serviceable s) (Flow.demandKeys (l.map idOf)) fun _ => Serviceable s :=
  yields_ofResult (demandKeys_eq_ok_iff.2 (List.forall_mem_map.2 h))

theorem yields_choice {q : Question} {c : Choice} (h : r.LegibleChoice s q c) :
    Yields (Serviceable s) (r.choice c) fun _ => Serviceable s :=
  .bind (yields_wording h.worded) fun _ => .pure fun _ h => h

/-- There is a verdict on a choice if there are verdicts on its parts. -/
theorem LegibleChoice.exists_verdict {q : Question} {c : Choice} (h : r.LegibleChoice s q c) :
    ∃ b, (s.context r.survey).choiceVerdict q c = .ok b := by
  obtain ⟨shown, hshown⟩ := h.judged
  rw [choiceVerdict, hshown]
  cases shown with
  | false => exact ⟨false, rfl⟩
  | true =>
    cases hgroup : choiceGroupOf? q c with
    | none => exact ⟨true, rfl⟩
    | some g => exact h.groupJudged g hgroup

/-- Rendering a question that can be shown has a result. -/
theorem yields_question {q : Question} (h : r.LegibleQuestion s q) :
    Yields (Serviceable s) (r.question q) fun _ => Serviceable s := by
  unfold question
  refine .bind .session fun t => .given (p := t.context r.survey = s.context r.survey)
    (fun _ h => h.2 ▸ h.1.data.context r.survey) fun hcontext => ?_
  rw [hcontext]
  have hchoices : Yields (Serviceable s) (Carried.choicesOf q r.survey) fun choices t =>
      Serviceable s t ∧ choices = (Carried.allChoices q r.survey s.responses).1 := by
    have hread (t : Session) (ht : Serviceable s t) :
        ((Questionnaire.demandComparable (q.choices.map Choice.index)).bind fun _ =>
          (Carried.demandCarriable q r.survey t.responses).bind fun _ =>
            .ok (Carried.allChoices q r.survey t.responses).1) =
          Except.ok (ε := Fault) (Carried.allChoices q r.survey s.responses).1 := by
      rw [ht.data.responses, demandComparable_of_areComparable h.indexes, h.carriable]
      rfl
    refine ((Yields.of_reads (Carried.reads_choicesOf q r.survey) fun t ht =>
      ⟨_, hread t ht⟩).and_ensures (.of_reads (Carried.reads_choicesOf q r.survey))).mono
        (fun _ h => h) fun choices t hpost => ⟨hpost.1, ?_⟩
    exact (Except.ok.inj ((hread t hpost.1).symm.trans hpost.2.2)).symm
  refine .bind (hchoices.mono (fun _ h => h.1) fun _ _ h => h) fun choices => ?_
  refine .given (fun _ h => h.2) fun hall => ?_
  subst hall
  have hverdict (c : Choice) (hc : c ∈ (Carried.allChoices q r.survey s.responses).1) :
      Yields (Serviceable s) ((s.context r.survey).showsChoice r.quiet c (some q))
        fun _ => Serviceable s :=
    .of_reads ((s.context r.survey).reads_showsChoice r.quiet q c) fun _ _ =>
      (h.choices c hc).exists_verdict
  have hkeep := (Yields.keep hverdict).and_ensures
    (Ensures.keep_sublist.mono (fun _ _ => trivial) fun _ _ h => h)
  refine .bind (hkeep.mono (fun _ h => h.1) fun _ _ h => h) fun shown => ?_
  refine .given (fun _ h => h.2) fun hsub => ?_
  have hshown (c : Choice) (hc : c ∈ shown) : r.LegibleChoice s q c := h.choices c (hsub.subset hc)
  let items := shown.map fun c => (⟨c.id, c.groupKey, c.weight⟩ : Sortable)
  have hkeyed : Order.Keyed (items.map Sortable.id) := by
    rw [List.map_map, Order.Keyed, List.forall_mem_map]
    exact fun c hc => (hshown c hc).id
  have harrange : Yields (Serviceable s)
      (Order.arrange r.weighting "option" q.id.display q.choiceOrder items)
      fun _ => Serviceable s :=
    yields_arrange hkeyed (List.forall_mem_map.2 fun c hc => (hshown c hc).groupKey)
      (List.forall_mem_map.2 fun c hc => (hshown c hc).weight)
  refine .bind (harrange.mono (fun _ h => h.1) fun _ _ h => h) fun ids => ?_
  refine .bind (yields_demandKeys fun c hc => (hshown c hc).id) fun _ => ?_
  refine .bind (yields_wording h.worded) fun _ => ?_
  refine .bind (.mapM fun c hc => yields_choice (hshown c (mem_of_mem_pick hc))) fun _ => ?_
  exact .pure fun _ h => h

theorem yields_questions {qs : List Question} (h : ∀ q ∈ qs, r.LegibleQuestion s q)
    {owner : String} {mode : OrderMode} :
    Yields (Serviceable s) (r.questions owner mode qs) fun _ => Serviceable s := by
  unfold questions
  have hkeep := (Yields.keep fun q hq => yields_shows (h q hq).judged).and_ensures
    (Ensures.keep_sublist.mono (fun _ _ => trivial) fun _ _ h => h)
  refine .bind (hkeep.mono (fun _ h => h) fun _ _ h => h) fun shown => ?_
  refine .given (fun _ h => h.2) fun hsub => ?_
  have hshown (q : Question) (hq : q ∈ shown) : r.LegibleQuestion s q := h q (hsub.subset hq)
  have harrange : Yields (Serviceable s) (Order.arrange r.weighting "question" owner mode
      (shown.map fun q => .plain q.id)) fun _ => Serviceable s :=
    yields_arrange_plain fun q hq => (hshown q hq).id
  refine .bind (harrange.mono (fun _ h => h.1) fun _ _ h => h) fun ids => ?_
  refine .bind (yields_demandKeys fun q hq => (hshown q hq).id) fun _ => ?_
  exact .mapM fun q hq => yields_question (hshown q (mem_of_mem_pick hq))

theorem yields_group? {onPage : List Question} (h : ∀ q ∈ onPage, r.LegibleQuestion s q) {g : Group}
    (hg : r.Judged s g.visibleIf ∧ r.Worded s g.title) :
    Yields (Serviceable s) (r.group? onPage g) fun _ => Serviceable s := by
  refine .bind (yields_shows hg.1) fun shown => .ite (fun _ => ?_) fun _ => .pure fun _ h => h
  refine .bind (yields_wording hg.2) fun _ => ?_
  refine .bind (yields_questions fun q hq => h q (List.mem_filter.1 hq).1) fun _ => ?_
  exact .pure fun _ h => h

theorem yields_groups {p : Page} (h : r.Legible s p) :
    Yields (Serviceable s) (r.groups p) fun _ => Serviceable s := by
  unfold groups
  refine .bind (yields_ofResult (demandComparable_of_areComparable h.questionIndexes)) fun _ => ?_
  refine .bind (yields_ofResult (demandComparable_of_areComparable h.groupIndexes)) fun _ => ?_
  refine .bind (.mapM fun g hg => yields_group? h.questions (h.groups g hg)) fun _ => ?_
  have hkeys : Order.Keyed ((r.survey.groupsOnPage p.id).map Group.id ++
      (r.survey.questionsOnPage p.id).map Question.groupId) := by
    intro id hid
    rcases List.mem_append.1 hid with hid | hid
    · obtain ⟨g, hg, rfl⟩ := List.mem_map.1 hid
      exact h.groupIds g hg
    · obtain ⟨q, hq, rfl⟩ := List.mem_map.1 hid
      exact h.groupNames q hq
  refine .bind (yields_ofResult (demandKeys_eq_ok_iff.2 hkeys)) fun _ => ?_
  refine .ite (fun _ => .pure fun _ h => h) fun _ => ?_
  refine .bind (yields_questions fun q hq => h.questions q (List.mem_filter.1 hq).1) fun _ => ?_
  exact .pure fun _ h => h

/-- Rendering a legible page has a result. -/
theorem yields_page {pageId : Id} {p : Page} (hp : r.survey.page? pageId = some p)
    (h : r.Legible s p) : Yields (Serviceable s) (r.page pageId) fun _ => Serviceable s := by
  unfold page
  rw [hp]
  refine .bind (yields_shows h.judged) fun shown => .ite (fun _ => ?_) fun _ => ?_
  · have hgroups := (yields_groups h).and_ensures
      ((groups_keyed r p).mono (fun _ _ => trivial) fun _ _ h => h)
    refine .bind hgroups fun groups => .given (fun _ h => h.2) fun hkeyed => ?_
    have harrange : Yields (Serviceable s) (Order.arrange r.weighting "group" p.id.display
        p.groupOrder (groups.map fun g => .plain g.id)) fun _ => Serviceable s :=
      yields_arrange_plain fun g hg => hkeyed g.id (List.mem_map_of_mem hg)
    refine .bind (harrange.mono (fun _ h => h.1) fun _ _ h => h) fun _ => ?_
    exact .bind (yields_wording h.worded) fun _ => .pure fun _ h => h
  · exact .bind (yields_wording h.worded) fun _ => .pure fun _ h => h

/-- Rendering a legible page has a result if the orders are tidy. -/
theorem exists_page {pageId : Id} {p : Page} (hp : r.survey.page? pageId = some p) {d : Desk}
    (h : r.Legible d.session p) (horders : Order.Tidy d.session.orders) :
    ∃ shown d', (r.page pageId).perform d = (.ok shown, d') := by
  have hserviceable : Serviceable d.session d.session :=
    ⟨⟨rfl, rfl⟩, fun key order horder id hid =>
      Value.isCompound_of_isText ((horders key order horder).1 id hid)⟩
  obtain ⟨shown, d', hperform, -⟩ := yields_page hp h d hserviceable
  exact ⟨shown, d', hperform⟩

end Renderer

end Questionnaire
