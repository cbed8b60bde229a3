import Mathlib.Data.List.Nodup
import Mathlib.Data.List.Perm.Basic
import Questionnaire.Proofs.Page.Rendering
import Questionnaire.Proofs.Page.Stability
import Questionnaire.Proofs.Page.Visible

/-!
# What a rendered page shows

Groups, questions and choices go the same way when a page is rendered: the visible ones are put in
order by their ids, and then looked for under these. Nothing gets lost or is shown twice as long as
the ids are different texts (`Named.pick_perm`) and the kept order has no duplicates.

The laws follow the parts of a page. A question as shown depicts the question (`Renderer.Depicts`),
and a list of questions as shown portrays the visible ones (`Renderer.Portrays`). What has to hold
of the session in between is `Renderer.Underway`: where the ids of a question's choices clash, the
order that is kept of them is spoiled, and no other one is.
-/

namespace Questionnaire

open Flow Context

/-! ## Things with names -/

/-- What is the only one of a list to pass a test is found by it. -/
theorem find?_eq_some_of_unique {α : Type} {l : List α} {test : α → Bool} {a : α} (ha : a ∈ l)
    (hpass : test a = true) (h : ∀ b ∈ l, test b = true → b = a) : l.find? test = some a := by
  cases hfound : l.find? test with
  | none => exact absurd hpass (List.find?_eq_none.1 hfound a ha)
  | some b => rw [h b (List.mem_of_find?_eq_some hfound) (List.find?_some hfound)]

/-- Things told apart by ids that are texts. -/
structure Named {α : Type} (idOf : α → Id) (l : List α) : Prop where
  texts : ∀ a ∈ l, (idOf a).isText = true
  nodup : (l.map idOf).Nodup

theorem named_iff {α : Type} {idOf : α → Id} {l : List α} :
    Named idOf l ↔ (∀ id ∈ l.map idOf, id.isText = true) ∧ (l.map idOf).Nodup :=
  ⟨fun h => ⟨List.forall_mem_map.2 h.texts, h.nodup⟩, fun h => ⟨List.forall_mem_map.1 h.1, h.2⟩⟩

namespace Named

variable {α : Type} {idOf : α → Id} {l m : List α}

theorem sublist (h : Named idOf m) (hl : l.Sublist m) : Named idOf l :=
  ⟨fun a ha => h.texts a (hl.subset ha), h.nodup.sublist (hl.map idOf)⟩

theorem filter (h : Named idOf l) (p : α → Bool) : Named idOf (l.filter p) :=
  h.sublist List.filter_sublist

theorem perm (h : Named idOf m) (hl : l.Perm m) : Named idOf l :=
  ⟨fun a ha => h.texts a (hl.mem_iff.1 ha), (hl.map idOf).nodup_iff.2 h.nodup⟩

theorem eq_of_id (h : Named idOf l) {a b : α} (ha : a ∈ l) (hb : b ∈ l) (hid : idOf a = idOf b) :
    a = b :=
  List.inj_on_of_nodup_map h.nodup ha hb hid

/-- Named things are put in order under their names. -/
theorem sortables (h : Named idOf l) {item : α → Sortable} (hitem : ∀ a, (item a).id = idOf a) :
    Named Sortable.id (l.map item) := by
  constructor
  · intro i hi
    obtain ⟨a, ha, rfl⟩ := List.mem_map.1 hi
    rw [hitem]
    exact h.texts a ha
  · rw [List.map_map]
    exact (List.map_congr_left fun a _ => hitem a) ▸ h.nodup

/-- A named thing is found under its id. -/
theorem withId?_of_mem (h : Named idOf l) {a : α} (ha : a ∈ l) :
    Renderer.withId? idOf l (idOf a) = some a := by
  refine find?_eq_some_of_unique (List.mem_reverse.2 ha) (Value.agrees_self _) fun b hb hagree => ?_
  have hb : b ∈ l := List.mem_reverse.1 hb
  exact h.eq_of_id hb ha (Value.eq_of_agrees (h.texts b hb) hagree)

/-- Looking for all ids of named things, in whatever order, finds each thing once. -/
theorem pick_perm (h : Named idOf l) {ids : List Id} (hids : ids.Perm (l.map idOf)) :
    (Renderer.pick idOf l ids).Perm l := by
  have hall : (l.map idOf).filterMap (Renderer.withId? idOf l) = l := by
    rw [List.filterMap_map]
    refine Eq.trans (List.filterMap_congr fun a ha => ?_) List.filterMap_some
    exact h.withId?_of_mem ha
  have hpick := hids.filterMap (Renderer.withId? idOf l)
  rw [hall] at hpick
  exact hpick

end Named

/-- Lists whose elements have something in common one by one have it in common as lists. -/
theorem map_eq_of_forall₂ {α β γ : Type} {f : α → γ} {g : β → γ} {l : List α} {m : List β}
    (h : List.Forall₂ (fun a b => g b = f a) l m) : m.map g = l.map f := by
  induction h with
  | nil => rfl
  | cons hab _ ih => rw [List.map_cons, List.map_cons, ih, hab]

/-- What is looked for in a list is one of it. -/
theorem Renderer.mem_of_mem_pick {α : Type} {idOf : α → Id} {l : List α} {ids : List Id} {a : α}
    (h : a ∈ Renderer.pick idOf l ids) : a ∈ l := by
  obtain ⟨id, -, hid⟩ := List.mem_filterMap.1 h
  exact List.mem_reverse.1 (List.mem_of_find?_eq_some hid)

/-! ## The keys of orders -/

/-- Texts that are displayed in the same way are the same. -/
theorem Value.eq_of_display {v w : Value} (hv : v.isText = true) (hw : w.isText = true)
    (h : v.display = w.display) : v = w := by
  cases v with
  | text a =>
    cases w with
    | text b => exact congrArg Value.text h
    | _ => cases hw
  | _ => cases hv

namespace Order

/-- What stands before the last colon of a text is determined by the text. -/
theorem eq_of_append_colon {x y c c' : List Char} (h : x ++ ':' :: c = y ++ ':' :: c')
    (hc : ':' ∉ c) (hc' : ':' ∉ c') : x = y := by
  rcases List.append_eq_append_iff.1 h with ⟨z, rfl, hz⟩ | ⟨z, rfl, hz⟩
  · cases z with
    | nil => exact (List.append_nil x).symm
    | cons a z =>
      obtain ⟨-, rfl⟩ := List.cons.inj hz
      exact absurd (List.mem_append_right z (.head _)) hc
  · cases z with
    | nil => exact List.append_nil y
    | cons a z =>
      obtain ⟨-, rfl⟩ := List.cons.inj hz
      exact absurd (List.mem_append_right z (.head _)) hc'

theorem colon_not_mem_code (mode : OrderMode) : ':' ∉ mode.code.toList := by
  cases mode <;> decide

variable {scope scope' owner owner' : String} {mode mode' : OrderMode}

theorem toList_cacheKey (scope owner : String) (mode : OrderMode) :
    (cacheKey scope owner mode).toList =
      (scope.toList ++ ':' :: owner.toList) ++ ':' :: mode.code.toList := by
  simp [cacheKey, String.toList_append]

theorem code_inj (h : mode.code = mode'.code) : mode = mode' := by
  cases mode <;> cases mode' <;> first | rfl | exact absurd h (by decide)

/-- A key tells the scope, the owner and the mode apart, whatever stands in the owner. The scope
ends at the first colon and the mode begins behind the last one. -/
theorem cacheKey_eq_iff (hscope : ':' ∉ scope.toList) (hscope' : ':' ∉ scope'.toList) :
    cacheKey scope owner mode = cacheKey scope' owner' mode' ↔
      scope = scope' ∧ owner = owner' ∧ mode = mode' := by
  constructor
  · intro h
    have hlist := congrArg String.toList h
    rw [toList_cacheKey, toList_cacheKey] at hlist
    have hbefore := eq_of_append_colon hlist (colon_not_mem_code mode) (colon_not_mem_code mode')
    rw [hbefore] at hlist
    have hmode := (List.cons.inj (List.append_cancel_left hlist)).2
    have howner : owner.toList.reverse = owner'.toList.reverse := by
      have hreverse := congrArg List.reverse hbefore
      simp only [List.reverse_append, List.reverse_cons, List.append_assoc, List.cons_append,
        List.nil_append] at hreverse
      exact eq_of_append_colon hreverse (by simpa using hscope) (by simpa using hscope')
    have howner := String.toList_injective (List.reverse_injective howner)
    rw [howner] at hbefore
    exact ⟨String.toList_injective (List.append_cancel_right hbefore), howner,
      code_inj (String.toList_injective hmode)⟩
  · rintro ⟨rfl, rfl, rfl⟩
    rfl

end Order

/-! ## Reading the choices of a question -/

/-- The choices of a question depend on the answers only. -/
theorem Carried.reads_choicesOf (q : Question) (survey : Survey) :
    (choicesOf q survey).Reads fun s =>
      (Questionnaire.demandComparable (q.choices.map Choice.index)).bind fun _ =>
        (demandCarriable q survey s.responses).bind fun _ =>
          .ok (allChoices q survey s.responses).1 :=
  Reads.session.bind fun _ => (Reads.ofResult _).bind fun _ => (Reads.ofResult _).bind fun _ =>
    (Reads.logAll _).bind fun _ => .pure _

namespace Renderer

variable (r : Renderer) (s : Session)

/-! ## Likenesses -/

/-- Whether ids tell the visible choices of a question apart. -/
def ChoicesApart (q : Question) : Prop := Named Choice.id (r.visibleChoices s q)

/-- A question as shown is like the question: if ids tell its visible choices apart, it has each of
them once. -/
structure Depicts (q : Question) (shown : RenderedQuestion) : Prop where
  id : shown.id = q.id
  variableName : shown.variableName = q.variableName
  kind : shown.kind = q.kind
  choices : r.ChoicesApart s q → (shown.choices.map fun c => (c.id, c.value)).Perm
    ((r.visibleChoices s q).map fun c => (c.id, c.value))

/-- Questions as shown are like questions, each like one of them, in some order. -/
def Portrays (qs : List Question) (shown : List RenderedQuestion) : Prop :=
  ∃ order : List Question, order.Perm qs ∧ List.Forall₂ (r.Depicts s) order shown

/-- The key of an order that is spoiled: that of a question whose visible choices share an id. -/
def Spoiled (key : String) : Prop :=
  ∃ q ∈ r.survey.questions, ¬r.ChoicesApart s q ∧
    ∃ mode, key = Order.cacheKey "option" q.id.display mode

/-- A session while a page is rendered for another one: it has the data of the other one, and its
orders are tidy unless they are spoiled. -/
structure Underway (t : Session) : Prop where
  data : s.SameData t
  tidy : ∀ key, ¬r.Spoiled s key → Order.TidyAt t.orders key

variable {r s}

theorem Underway.start (h : Order.Tidy s.orders) : r.Underway s s := ⟨⟨rfl, rfl⟩, fun key _ => h key⟩

namespace Portrays

variable {qs qs' : List Question} {shown shown' : List RenderedQuestion}

theorem append (h : r.Portrays s qs shown) (h' : r.Portrays s qs' shown') :
    r.Portrays s (qs ++ qs') (shown ++ shown') := by
  obtain ⟨order, hperm, hlike⟩ := h
  obtain ⟨order', hperm', hlike'⟩ := h'
  exact ⟨order ++ order', hperm.append hperm', List.rel_append hlike hlike'⟩

theorem perm (h : r.Portrays s qs shown) (hqs : qs.Perm qs') : r.Portrays s qs' shown := by
  obtain ⟨order, hperm, hlike⟩ := h
  exact ⟨order, hperm.trans hqs, hlike⟩

/-- The order in which questions are shown does not matter. -/
theorem perm_shown (h : r.Portrays s qs shown) (hshown : shown'.Perm shown) :
    r.Portrays s qs shown' := by
  obtain ⟨order, hperm, hlike⟩ := h
  have hcomp : Relation.Comp (List.Forall₂ (r.Depicts s)) List.Perm order shown' :=
    ⟨shown, hlike, hshown.symm⟩
  rw [List.forall₂_comp_perm_eq_perm_comp_forall₂] at hcomp
  obtain ⟨order', horder, hlike'⟩ := hcomp
  exact ⟨order', horder.symm.trans hperm, hlike'⟩

/-- Each question as shown is like one of the questions. -/
theorem exists_depicts (h : r.Portrays s qs shown) {rq : RenderedQuestion} (hrq : rq ∈ shown) :
    ∃ q ∈ qs, r.Depicts s q rq := by
  obtain ⟨order, hperm, hlike⟩ := h
  obtain ⟨i, hi, rfl⟩ := List.getElem_of_mem hrq
  have hlt : i < order.length := by
    rw [hlike.length_eq]
    exact hi
  exact ⟨order[i], hperm.mem_iff.1 (List.getElem_mem hlt), hlike.get hlt hi⟩

/-- What questions as shown have of the questions themselves is a permutation of it. -/
theorem map_perm (h : r.Portrays s qs shown) {α : Type} {f : RenderedQuestion → α}
    {g : Question → α} (hfg : ∀ q rq, r.Depicts s q rq → f rq = g q) :
    (shown.map f).Perm (qs.map g) := by
  obtain ⟨order, hperm, hlike⟩ := h
  rw [map_eq_of_forall₂ (hlike.imp hfg)]
  exact hperm.map g

end Portrays

/-! ## Orders -/

/-- An order of another scope than that of choices is not spoiled. -/
theorem not_spoiled {scope owner : String} {mode : OrderMode} (hscope : ':' ∉ scope.toList)
    (hne : scope ≠ "option") : ¬r.Spoiled s (Order.cacheKey scope owner mode) := by
  rintro ⟨q, -, -, mode', hkey⟩
  exact hne ((Order.cacheKey_eq_iff hscope (by decide)).1 hkey).1

/-- The order of the choices of a question is not spoiled by other questions. -/
theorem not_spoiled_choices (hnamed : Named Question.id r.survey.questions) {q : Question}
    (hq : q ∈ r.survey.questions) (happart : r.ChoicesApart s q) {mode : OrderMode} :
    ¬r.Spoiled s (Order.cacheKey "option" q.id.display mode) := by
  rintro ⟨q', hq', hclash, mode', hkey⟩
  have howner := ((Order.cacheKey_eq_iff (by decide) (by decide)).1 hkey).2.1
  have hid : q.id = q'.id :=
    Value.eq_of_display (hnamed.texts q hq) (hnamed.texts q' hq') howner
  exact hclash (hnamed.eq_of_id hq hq' hid ▸ happart)

section
variable {scope owner : String} {mode : OrderMode} {items : List Sortable}

/-- Putting named things in order gives all their ids. -/
theorem arrange_perm (hkey : ¬r.Spoiled s (Order.cacheKey scope owner mode))
    (h : Named Sortable.id items) :
    Ensures (r.Underway s) (Order.arrange r.weighting scope owner mode items) fun ids _ =>
      ids.Perm (items.map Sortable.id) := by
  intro d ids d' hd hperform
  have harranged := Order.arrange_ensures r.weighting scope owner mode items d.session d ids d' rfl
    hperform
  exact harranged.perm (List.forall_mem_map.2 h.texts) h.nodup (hd.tidy _ hkey)

/-- Putting things in order spoils nothing that it should not. -/
theorem keeps_arrange (h : ¬r.Spoiled s (Order.cacheKey scope owner mode) →
    Named Sortable.id items) :
    Keeps (r.Underway s) (Order.arrange r.weighting scope owner mode items) := by
  intro d ids d' hd hperform
  have harranged := Order.arrange_ensures r.weighting scope owner mode items d.session d ids d' rfl
    hperform
  have hdata : s.SameData d'.session := by
    have hkeeps := Order.keeps_arrange (P := s.SameData) (fun _ _ h => ⟨h.responses, h.embedded⟩)
      r.weighting scope owner mode items
    exact hkeeps d ids d' hd.data hperform
  refine ⟨hdata, fun key hkey => ?_⟩
  by_cases heq : key = Order.cacheKey scope owner mode
  · subst heq
    exact harranged.tidyAt (List.forall_mem_map.2 (h hkey).texts) (h hkey).nodup (hd.tidy _ hkey)
  · intro order horder
    rw [harranged.elsewhere heq] at horder
    exact hd.tidy key hkey order horder

end

/-! ## Questions -/

/-- A choice as shown has the id and the value of the choice. -/
theorem choice_ensures (c : Choice) : Ensures (r.Underway s) (r.choice c) fun shown t =>
    r.Underway s t ∧ (shown.id, shown.value) = (c.id, c.value) :=
  .bind (keeps_wording r c.label) fun _ => .pure fun _ h => ⟨h, rfl⟩

theorem choicesOf_ensures (q : Question) :
    Ensures (r.Underway s) (Carried.choicesOf q r.survey) fun choices t =>
      r.Underway s t ∧ choices = (Carried.allChoices q r.survey s.responses).1 := by
  refine (Ensures.of_reads (Carried.reads_choicesOf q r.survey)).mono (fun _ h => h) ?_
  rintro choices t ⟨ht, hread⟩
  rw [ht.data.responses] at hread
  refine ⟨ht, ?_⟩
  cases hindexes : Questionnaire.demandComparable (q.choices.map Choice.index) with
  | error e => rw [hindexes] at hread; cases hread
  | ok u =>
    cases hcarry : Carried.demandCarriable q r.survey s.responses with
    | error e => rw [hindexes, hcarry] at hread; cases hread
    | ok u' =>
      rw [hindexes, hcarry] at hread
      cases hread
      rfl

/-- Of all choices of a question the visible ones are kept. -/
theorem keep_choices_ensures (q : Question) :
    Ensures (r.Underway s)
      (keep (fun c => (s.context r.survey).showsChoice r.quiet c (some q))
        (Carried.allChoices q r.survey s.responses).1)
      fun shown t => r.Underway s t ∧ shown = r.visibleChoices s q := by
  refine (Ensures.keep (P := r.Underway s) (v := (s.context r.survey).choiceVerdict q)
    fun c _ => ?_).mono (fun _ h => h) fun shown t h => ⟨h.1, ?_⟩
  · exact .of_reads ((s.context r.survey).reads_showsChoice r.quiet q c)
  · simp only [h.2.2, isFavourable_choiceVerdict]
    rfl

/-- A question as shown is like the question. -/
theorem question_ensures (hnamed : Named Question.id r.survey.questions) {q : Question}
    (hq : q ∈ r.survey.questions) :
    Ensures (r.Underway s) (r.question q) fun shown t => r.Underway s t ∧ r.Depicts s q shown := by
  unfold question
  refine .bind .session fun t => .given (p := t.context r.survey = s.context r.survey)
    (fun _ h => h.2 ▸ h.1.data.context r.survey) fun hcontext => ?_
  rw [hcontext]
  refine .bind ((choicesOf_ensures q).mono (fun _ h => h.1) fun _ _ h => h) fun choices => ?_
  refine .given (fun _ h => h.2) fun hall => ?_
  subst hall
  refine .bind ((keep_choices_ensures q).mono (fun _ h => h.1) fun _ _ h => h) fun shown => ?_
  refine .given (fun _ h => h.2) fun hshown => ?_
  subst hshown
  let items := (r.visibleChoices s q).map fun c => (⟨c.id, c.groupKey, c.weight⟩ : Sortable)
  have hitems (happart : r.ChoicesApart s q) : Named Sortable.id items :=
    happart.sortables fun _ => rfl
  have hkeeps : Keeps (r.Underway s)
      (Order.arrange r.weighting "option" q.id.display q.choiceOrder items) := by
    refine keeps_arrange fun hkey => hitems ?_
    by_contra hclash
    exact hkey ⟨q, hq, hclash, _, rfl⟩
  have hperm : Ensures (r.Underway s)
      (Order.arrange r.weighting "option" q.id.display q.choiceOrder items)
      fun ids _ => r.ChoicesApart s q → ids.Perm (items.map Sortable.id) :=
    fun d ids d' hd hperform happart => arrange_perm
      (not_spoiled_choices hnamed hq happart) (hitems happart) d ids d' hd hperform
  refine .bind ((hkeeps.and hperm).mono (fun _ h => h.1) fun _ _ h => h) fun ids => ?_
  refine .given (fun _ h => h.2) fun hids => ?_
  refine .bind (Keeps.demandKeys.mono (fun _ h => h.1) fun _ _ h => h) fun _ => ?_
  refine .bind (keeps_wording r q.text) fun text => ?_
  refine .bind (Ensures.mapM_forall₂ fun c _ => choice_ensures c) fun choices => .pure fun t ht => ?_
  refine ⟨ht.1, rfl, rfl, rfl, fun happart => ?_⟩
  -- The choices are picked in the order of the ids, which are those of the visible choices.
  have hpick : (pick Choice.id (r.visibleChoices s q) ids).Perm (r.visibleChoices s q) := by
    have hshown := hids happart
    rw [List.map_map] at hshown
    exact happart.pick_perm hshown
  show (choices.map fun c => (c.id, c.value)).Perm _
  rw [map_eq_of_forall₂ ht.2]
  exact hpick.map _

/-- Questions as shown are like the visible ones of the questions. -/
theorem questions_ensures (hnamed : Named Question.id r.survey.questions) {qs : List Question}
    (hqs : ∀ q ∈ qs, q ∈ r.survey.questions) (hapart : Named Question.id qs) {scope : String}
    {mode : OrderMode} :
    Ensures (r.Underway s) (r.questions scope mode qs) fun shown t => r.Underway s t ∧
      (∀ q ∈ qs, ∃ b, (s.context r.survey).verdict q.visibleIf = .ok b) ∧
      r.Portrays s (qs.filter fun q => (s.context r.survey).isVisible q.visibleIf) shown := by
  unfold questions
  have htest (q : Question) : Ensures (r.Underway s) (r.shows q.visibleIf) fun b t =>
      r.Underway s t ∧ (s.context r.survey).verdict q.visibleIf = .ok b := by
    refine (Ensures.of_reads (r.reads_shows q.visibleIf)).mono (fun _ h => h) fun b t h => ?_
    rw [h.1.data.context] at h
    exact h
  refine .bind (Ensures.keep fun q _ => htest q) fun shown => .given (fun _ h => h.2) fun h => ?_
  obtain ⟨hverdicts, rfl⟩ := h
  let visible := qs.filter fun q => (s.context r.survey).isVisible q.visibleIf
  have hvisible : Named Question.id visible := hapart.filter _
  have hkey : ¬r.Spoiled s (Order.cacheKey "question" scope mode) :=
    not_spoiled (by decide) (by decide)
  have hitems : Named Sortable.id (visible.map fun q => Sortable.plain q.id) :=
    hvisible.sortables fun _ => rfl
  have harrange := (keeps_arrange fun _ => hitems).and (arrange_perm hkey hitems)
  refine .bind (harrange.mono (fun _ h => h.1) fun _ _ h => h) fun ids => ?_
  refine .given (fun _ h => h.2) fun hids => ?_
  refine .bind (Keeps.demandKeys.mono (fun _ h => h.1) fun _ _ h => h) fun _ => ?_
  rw [List.map_map] at hids
  have hpick : (pick Question.id visible ids).Perm visible := hvisible.pick_perm hids
  refine (Ensures.mapM_forall₂ fun q hq => question_ensures hnamed (hqs q ?_)).mono
    (fun _ h => h) fun shown t h => ⟨h.1, hverdicts, _, hpick, h.2⟩
  exact (List.mem_filter.1 (mem_of_mem_pick hq)).1

/-! ## Groups -/

variable (r s) in
/-- What an authored group is shown as: nothing if it is hidden, or a group with its id that
portrays its visible questions. -/
inductive GroupShown (onPage : List Question) (g : Group) : Option RenderedGroup → Prop
  | hidden : (s.context r.survey).verdict g.visibleIf = .ok false → GroupShown onPage g none
  | shown {rg : RenderedGroup} : (s.context r.survey).verdict g.visibleIf = .ok true →
      rg.id = g.id →
      (∀ q ∈ onPage.filter fun q => q.groupId.equal g.id,
        ∃ b, (s.context r.survey).verdict q.visibleIf = .ok b) →
      r.Portrays s ((onPage.filter fun q => q.groupId.equal g.id).filter fun q =>
        (s.context r.survey).isVisible q.visibleIf) rg.questions →
      GroupShown onPage g (some rg)

theorem group?_ensures (hnamed : Named Question.id r.survey.questions) {onPage : List Question}
    (honPage : ∀ q ∈ onPage, q ∈ r.survey.questions) (hapart : Named Question.id onPage)
    (g : Group) :
    Ensures (r.Underway s) (r.group? onPage g) fun o t =>
      r.Underway s t ∧ r.GroupShown s onPage g o := by
  unfold group?
  refine .bind (.of_reads (r.reads_shows g.visibleIf)) fun shown => ?_
  have hverdict : ∀ t, (r.Underway s t ∧ (t.context r.survey).verdict g.visibleIf = .ok shown) →
      (s.context r.survey).verdict g.visibleIf = .ok shown := by
    rintro t ⟨ht, hread⟩
    rwa [ht.data.context] at hread
  refine .given hverdict fun hg => .ite (fun hshown => ?_) fun hhidden => .pure fun _ h => ?_
  · subst hshown
    refine .bind ((keeps_wording r g.title).mono (fun _ h => h.1) fun _ _ h => h) fun title => ?_
    have hmembers : (onPage.filter fun q => q.groupId.equal g.id).Sublist onPage :=
      List.filter_sublist
    refine .bind (questions_ensures hnamed (fun q hq => honPage q (hmembers.subset hq))
      (hapart.sublist hmembers)) fun qs => .pure fun _ h => ?_
    exact ⟨h.1, .shown hg rfl h.2.1 h.2.2⟩
  · subst hhidden
    exact ⟨h.1, .hidden hg⟩

variable {onPage : List Question} {authored : List Group} {found : List (Option RenderedGroup)}

/-- The groups that are shown have the ids of the visible ones. -/
theorem ids_of_groupsShown (h : List.Forall₂ (r.GroupShown s onPage) authored found) :
    (found.filterMap id).map RenderedGroup.id =
      (authored.filter fun g => (s.context r.survey).isVisible g.visibleIf).map Group.id := by
  induction h with
  | nil => rfl
  | cons hg _ ih =>
    cases hg with
    | hidden hverdict =>
      rw [List.filter_cons, isVisible, hverdict, List.filterMap_cons]
      exact ih
    | shown hverdict hid _ _ =>
      rw [List.filter_cons, isVisible, hverdict, List.filterMap_cons]
      exact congrArg₂ List.cons hid ih

/-- The groups that are shown portray the visible questions of the visible groups. -/
theorem portrays_of_groupsShown (h : List.Forall₂ (r.GroupShown s onPage) authored found) :
    r.Portrays s
      ((authored.filter fun g => (s.context r.survey).isVisible g.visibleIf).flatMap fun g =>
        (onPage.filter fun q => q.groupId.equal g.id).filter fun q =>
          (s.context r.survey).isVisible q.visibleIf)
      ((found.filterMap id).flatMap RenderedGroup.questions) := by
  induction h with
  | nil => exact ⟨[], .refl _, .nil⟩
  | cons hg _ ih =>
    cases hg with
    | hidden hverdict =>
      rw [List.filter_cons, isVisible, hverdict, List.filterMap_cons]
      exact ih
    | shown hverdict _ _ hportrays =>
      rw [List.filter_cons, isVisible, hverdict, List.filterMap_cons]
      exact hportrays.append ih

end Renderer

end Questionnaire
