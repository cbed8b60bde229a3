import Questionnaire.Proofs.Flow.Disregard
import Questionnaire.Proofs.Page.Portrait
import Questionnaire.Sample.BrandTracker

/-!
# Whose order is kept under a key

Four kinds of lists are put in order when a page is rendered (`OrderedList`). The key of an order
tells the kind of the list, the id of its owner and the mode apart, whatever stands in the id
(`OrderedList.key_eq_iff`): the scope ends at the first colon, the mode begins behind the last one,
and of the two kinds of lists of questions the owners begin differently.

So in a survey whose pages, groups and questions have ids of their own, no two lists have a key in
common (`OrderedList.key_ne`). Putting one list in order has nothing to do with the orders of the
others (`Order.disregards_arrange`), and rendering a page has nothing to do with the orders of lists
that are not on the page (`Renderer.disregards_page`).
-/

namespace Questionnaire

open Flow

/-! ## Lists that are put in order -/

/-- A list of things that are shown in a drawn order. -/
inductive OrderedList
  | groupsOf (p : Page)
  | questionsOf (g : Group)
  /-- The questions of a page that are in no group of the page. -/
  | standaloneOf (p : Page)
  | choicesOf (q : Question)

namespace OrderedList

/-- What the things are, and what they belong to. -/
inductive Kind
  | groupsOfPage
  | questionsOfGroup
  | questionsOfPage
  | choicesOfQuestion
  deriving DecidableEq

def kind : OrderedList → Kind
  | .groupsOf _ => .groupsOfPage
  | .questionsOf _ => .questionsOfGroup
  | .standaloneOf _ => .questionsOfPage
  | .choicesOf _ => .choicesOfQuestion

/-- The id of what the things belong to. -/
def ownerId : OrderedList → Id
  | .groupsOf p | .standaloneOf p => p.id
  | .questionsOf g => g.id
  | .choicesOf q => q.id

/-- The mode that the author has chosen. -/
def mode : OrderedList → OrderMode
  | .groupsOf p => p.groupOrder
  | .questionsOf g => g.questionOrder
  | .standaloneOf p => p.questionOrder
  | .choicesOf q => q.choiceOrder

/-- The scope under which a list is put in order. -/
def scope : OrderedList → String
  | .groupsOf _ => "group"
  | .questionsOf _ | .standaloneOf _ => "question"
  | .choicesOf _ => "option"

/-- The owner under which a list is put in order. -/
def owner : OrderedList → String
  | .groupsOf p => p.id.display
  | .questionsOf g => Renderer.groupOwner g.id
  | .standaloneOf p => Renderer.pageOwner p.id
  | .choicesOf q => q.id.display

/-- The key under which the order of a list in a mode is kept. -/
def key (l : OrderedList) (m : OrderMode) : String := Order.cacheKey l.scope l.owner m

/-- The lists of a survey. -/
def IsOf (survey : Survey) : OrderedList → Prop
  | .groupsOf p | .standaloneOf p => p ∈ survey.pages
  | .questionsOf g => g ∈ survey.groups
  | .choicesOf q => q ∈ survey.questions

/-- The lists in a group: its questions, and the choices of each of these. -/
def IsIn (g : Group) (onPage : List Question) : OrderedList → Prop
  | .questionsOf g' => g' = g
  | .choicesOf q => q ∈ onPage.filter fun q => q.groupId.equal g.id
  | _ => False

/-- The lists of a survey that are on a page. -/
def IsOn (survey : Survey) (p : Page) : OrderedList → Prop
  | .groupsOf p' | .standaloneOf p' => p' = p
  | .questionsOf g => g ∈ survey.groupsOnPage p.id
  | .choicesOf q => q ∈ survey.questionsOnPage p.id

variable {l l' : OrderedList} {m m' : OrderMode} {survey : Survey}

theorem colon_not_mem_scope (l : OrderedList) : ':' ∉ l.scope.toList := by
  cases l <;> simp [scope]

theorem groupOwner_ne_pageOwner (id id' : Id) :
    Renderer.groupOwner id ≠ Renderer.pageOwner id' := by
  intro h
  have hhead := congrArg (fun owner : String => owner.toList.head?) h
  simp [Renderer.groupOwner, Renderer.pageOwner] at hhead

/-- Two orders have one key only if they are orders of one kind in one mode and their owners' ids
are displayed in the same way. -/
theorem key_eq_iff : l.key m = l'.key m' ↔
    l.kind = l'.kind ∧ l.ownerId.display = l'.ownerId.display ∧ m = m' := by
  rw [key, key, Order.cacheKey_eq_iff l.colon_not_mem_scope l'.colon_not_mem_scope]
  cases l with
  | groupsOf p => cases l' <;> simp [scope, owner, kind, ownerId]
  | questionsOf g =>
    cases l' with
    | standaloneOf p => simp [scope, owner, kind, groupOwner_ne_pageOwner]
    | _ => simp [scope, owner, kind, ownerId, Renderer.groupOwner]
  | standaloneOf p =>
    cases l' with
    | questionsOf g => simp [scope, owner, kind, (groupOwner_ne_pageOwner _ _).symm]
    | _ => simp [scope, owner, kind, ownerId, Renderer.pageOwner]
  | choicesOf q => cases l' <;> simp [scope, owner, kind, ownerId]

end OrderedList

/-- A survey whose pages, groups and questions each have texts of their own for ids. -/
structure Survey.Labelled (survey : Survey) : Prop where
  pages : Named Page.id survey.pages
  groups : Named Group.id survey.groups
  questions : Named Question.id survey.questions

namespace OrderedList

variable {l l' : OrderedList} {m m' : OrderMode} {survey : Survey}

/-- A list of a survey is the only one of its kind that belongs to something with the id. -/
theorem eq_of_ownerId (h : survey.Labelled) (hl : l.IsOf survey) (hl' : l'.IsOf survey)
    (hkind : l.kind = l'.kind) (hid : l.ownerId.display = l'.ownerId.display) : l = l' := by
  cases l with
  | groupsOf p | standaloneOf p =>
    cases l' <;> cases hkind
    next p' =>
      have hid := Value.eq_of_display (h.pages.texts p hl) (h.pages.texts p' hl') hid
      rw [h.pages.eq_of_id hl hl' hid]
  | questionsOf g =>
    cases l' <;> cases hkind
    next g' =>
      have hid := Value.eq_of_display (h.groups.texts g hl) (h.groups.texts g' hl') hid
      rw [h.groups.eq_of_id hl hl' hid]
  | choicesOf q =>
    cases l' <;> cases hkind
    next q' =>
      have hid := Value.eq_of_display (h.questions.texts q hl) (h.questions.texts q' hl') hid
      rw [h.questions.eq_of_id hl hl' hid]

/-- Different lists of a survey have different keys, and so has one list in different modes. -/
theorem key_ne (h : survey.Labelled) (hl : l.IsOf survey) (hl' : l'.IsOf survey)
    (hne : (l, m) ≠ (l', m')) : l.key m ≠ l'.key m' := by
  intro hkey
  obtain ⟨hkind, hid, rfl⟩ := key_eq_iff.1 hkey
  exact hne (by rw [eq_of_ownerId h hl hl' hkind hid])

end OrderedList

/-! ## Orders that rendering has nothing to do with -/

/-- Of certain lists, no order is kept under a key. -/
def OrderedList.Elsewhere (lists : OrderedList → Prop) (key : String) : Prop :=
  ∀ l, lists l → l.mode ≠ .sequential → l.key l.mode ≠ key

section
variable {key : String}

/-- Putting a list in order disregards all keys but that of the list. -/
theorem Order.disregards_arrange {weighting : Weighting} {scope owner : String} {mode : OrderMode}
    {items : List Sortable} (h : mode ≠ .sequential → cacheKey scope owner mode ≠ key) :
    Disregards key (arrange weighting scope owner mode items) := by
  refine .ite (fun _ => .pure) fun hmode => ?_
  have hne := h (by simpa using hmode)
  refine .bind_session (fun s => ?_) fun s o => ?_
  · split
    · refine .bind .drawn fun _ => .bind .ofResult fun _ => ?_
      refine .bind (.update fun s o => ?_) fun _ => .pure
      rw [Session.withOrder, Session.withOrder, Dict.set_assign hne]
    · refine .bind .log fun _ => .bind .demandKeys fun _ => ?_
      refine .bind (.update fun s o => ?_) fun _ => .pure
      rw [Session.withOrder, Session.withOrder, Dict.set_assign hne]
  · simp only [Session.withOrder, Dict.get?_assign, if_neg hne]

theorem Context.disregards_shows (ctx : Context) (quiet : Bool) (criterion : Option Criterion) :
    Disregards key (ctx.shows quiet criterion) :=
  .bind .logAll fun _ => .ofResult

theorem Context.disregards_showsChoice (ctx : Context) (quiet : Bool) (c : Choice)
    (question : Option Question) : Disregards key (ctx.showsChoice quiet c question) := by
  refine .bind (disregards_shows ctx quiet _) fun _ => .ite (fun _ => ?_) fun _ => .pure
  split
  · exact disregards_shows ctx quiet _
  · exact .pure

theorem Carried.disregards_choicesOf (q : Question) (survey : Survey) :
    Disregards key (choicesOf q survey) :=
  .bind_session (fun _ => .bind .demandComparable fun _ => .bind .ofResult fun _ =>
    .bind .logAll fun _ => .pure) fun _ _ => rfl

namespace Renderer

open OrderedList

variable (r : Renderer)

theorem disregards_keep {α : Type} {test : α → Flow Bool} (h : ∀ a, Disregards key (test a)) :
    ∀ l : List α, Disregards key (keep test l)
  | [] => .pure
  | a :: l => .bind (h a) fun _ => .bind (disregards_keep h l) fun _ => .pure

theorem disregards_shows (criterion : Option Criterion) : Disregards key (r.shows criterion) :=
  .bind_session (fun _ => Context.disregards_shows _ _ _) fun _ _ => rfl

theorem disregards_wording (text : Value) : Disregards key (r.wording text) :=
  .bind_session (fun _ => .ofResult) fun _ _ => rfl

theorem disregards_choice (c : Choice) : Disregards key (r.choice c) :=
  .bind (r.disregards_wording c.label) fun _ => .pure

/-- A question disregards all keys but that of its choices. -/
theorem disregards_question {q : Question} (h : Elsewhere (· = .choicesOf q) key) :
    Disregards key (r.question q) := by
  refine .bind_session (fun s => ?_) fun _ _ => rfl
  refine .bind (Carried.disregards_choicesOf q r.survey) fun _ => ?_
  refine .bind (disregards_keep (fun _ => Context.disregards_showsChoice _ _ _ _) _) fun _ => ?_
  refine .bind (Order.disregards_arrange (h _ rfl)) fun _ => .bind .demandKeys fun _ => ?_
  refine .bind (r.disregards_wording q.text) fun _ => ?_
  exact .bind (.mapM fun c _ => r.disregards_choice c) fun _ => .pure

/-- Questions disregard all keys but their own and those of their choices. -/
theorem disregards_questions {owner : String} {mode : OrderMode} {qs : List Question}
    (h : mode ≠ .sequential → Order.cacheKey "question" owner mode ≠ key)
    (hqs : ∀ q ∈ qs, Elsewhere (· = .choicesOf q) key) :
    Disregards key (r.questions owner mode qs) := by
  refine .bind_ensures (disregards_keep (fun _ => r.disregards_shows _) qs) Ensures.keep_sublist
    fun shown hshown => ?_
  refine .bind (Order.disregards_arrange h) fun _ => .bind .demandKeys fun _ => ?_
  exact .mapM fun q hq => r.disregards_question (hqs q (hshown.subset (mem_of_mem_pick hq)))

/-- A group disregards all keys but those of the lists in it. -/
theorem disregards_group? {onPage : List Question} {g : Group}
    (h : Elsewhere (IsIn g onPage) key) : Disregards key (r.group? onPage g) := by
  refine .bind (r.disregards_shows _) fun _ => .ite (fun _ => ?_) fun _ => .pure
  refine .bind (r.disregards_wording _) fun _ => .bind ?_ fun _ => .pure
  refine r.disregards_questions (h (.questionsOf g) rfl) fun q hq => ?_
  rintro _ rfl
  exact h (.choicesOf q) hq

theorem disregards_groups {p : Page} (h : Elsewhere (IsOn r.survey p) key) :
    Disregards key (r.groups p) := by
  refine .bind .demandComparable fun _ => .bind .demandComparable fun _ => ?_
  refine .bind (.mapM fun g hg => r.disregards_group? fun l hl => h l ?_) fun _ =>
    .bind .demandKeys fun _ => .ite (fun _ => .pure) fun _ => .bind ?_ fun _ => .pure
  · cases l with
    | questionsOf g' =>
      obtain rfl : g' = g := hl
      exact hg
    | choicesOf q => exact List.mem_of_mem_filter hl
    | _ => cases hl
  · refine r.disregards_questions (h (.standaloneOf p) rfl) fun q hq => ?_
    rintro _ rfl
    exact h (.choicesOf q) (List.mem_of_mem_filter hq)

/-- A page disregards all keys but those of the lists on it. -/
theorem disregards_page {pageId : Id}
    (h : ∀ p, r.survey.page? pageId = some p → Elsewhere (IsOn r.survey p) key) :
    Disregards key (r.page pageId) := by
  unfold page
  split
  · exact .throw
  · next p hp =>
    refine .bind (r.disregards_shows _) fun _ => .ite (fun _ => ?_) fun _ => ?_
    · refine .bind (r.disregards_groups (h p hp)) fun _ => ?_
      refine .bind (Order.disregards_arrange (h p hp (.groupsOf p) rfl)) fun _ => ?_
      exact .bind (r.disregards_wording _) fun _ => .pure
    · exact .bind (r.disregards_wording _) fun _ => .pure

end Renderer

end

/-! ## Orders that are kept apart -/

namespace OrderedList

variable {survey : Survey} {l : OrderedList} {m : OrderMode} {p : Page}

theorem IsIn.isOf {g : Group} {onPage : List Question} (h : l.IsIn g onPage)
    (hg : g ∈ survey.groups) (honPage : onPage ⊆ survey.questions) : l.IsOf survey := by
  cases l with
  | questionsOf g' =>
    obtain rfl : g' = g := h
    exact hg
  | choicesOf q => exact honPage (List.mem_of_mem_filter h)
  | _ => cases h

theorem IsOn.isOf (h : l.IsOn survey p) (hp : p ∈ survey.pages) : l.IsOf survey := by
  cases l with
  | groupsOf p' | standaloneOf p' =>
    obtain rfl : p' = p := h
    exact hp
  | questionsOf g => exact List.mem_of_mem_filter ((sortedBy_perm _ _).mem_iff.1 h)
  | choicesOf q => exact List.mem_of_mem_filter ((sortedBy_perm _ _).mem_iff.1 h)

/-- Under the key of a list no order of other lists is kept. -/
theorem elsewhere_key (h : survey.Labelled) {lists : OrderedList → Prop}
    (hlists : ∀ l', lists l' → l'.IsOf survey) (hl : l.IsOf survey)
    (happart : lists l → m = l.mode → m = .sequential) : Elsewhere lists (l.key m) := by
  refine fun l' hl' hmode => key_ne h (hlists l' hl') hl fun heq => ?_
  obtain ⟨rfl, rfl⟩ := Prod.mk.inj heq
  exact hmode (happart hl' rfl)

/-- The orders of a survey are kept apart. The key of an order tells the kind of the list, the id of
its owner as it is displayed and the mode. In a survey whose pages, groups and questions have ids of
their own, two orders that are not of one list in one mode have different keys, and whatever things
the one list has, putting them in order has nothing to do with what is kept of the other. Rendering
a question, a group or a page has nothing to do with an order of a list unless the list is one of
the question, in the group or on the page and is shown in the mode of the order. -/
theorem orders_apart (h : survey.Labelled) :
    (∀ (l l' : OrderedList) (m m' : OrderMode), l.key m = l'.key m' ↔
      l.kind = l'.kind ∧ l.ownerId.display = l'.ownerId.display ∧ m = m') ∧
    (∀ (l l' : OrderedList) (m m' : OrderMode), l.IsOf survey → l'.IsOf survey →
      (l, m) ≠ (l', m') → l.key m ≠ l'.key m' ∧ ∀ weighting items,
        Disregards (l'.key m') (Order.arrange weighting l.scope l.owner m items)) ∧
    (∀ r : Renderer, r.survey = survey → ∀ (l : OrderedList) (m : OrderMode), l.IsOf survey →
      (∀ q ∈ survey.questions, (l = .choicesOf q → m = l.mode → m = .sequential) →
        Disregards (l.key m) (r.question q)) ∧
      (∀ g ∈ survey.groups, ∀ onPage ⊆ survey.questions,
        (l.IsIn g onPage → m = l.mode → m = .sequential) →
          Disregards (l.key m) (r.group? onPage g)) ∧
      (∀ pageId, (∀ p, survey.page? pageId = some p →
        l.IsOn survey p → m = l.mode → m = .sequential) →
          Disregards (l.key m) (r.page pageId))) := by
  refine ⟨fun l l' m m' => key_eq_iff, fun l l' m m' hl hl' hne => ?_, ?_⟩
  · have hkey := key_ne h hl hl' hne
    exact ⟨hkey, fun _ _ => Order.disregards_arrange fun _ => hkey⟩
  · rintro r rfl l m hl
    refine ⟨fun q hq happart => ?_, fun g hg onPage honPage happart => ?_, fun pageId happart => ?_⟩
    · refine r.disregards_question (elsewhere_key h ?_ hl happart)
      rintro _ rfl
      exact hq
    · exact r.disregards_group? (elsewhere_key h (fun _ hl' => hl'.isOf hg honPage) hl happart)
    · refine r.disregards_page fun p hp => elsewhere_key h (fun _ hl' => ?_) hl (happart p hp)
      exact hl'.isOf (List.mem_of_find?_eq_some hp)

end OrderedList

namespace Sample.SameIds

/-- A page whose lists are all shuffled. -/
def page (id : String) (index : Int) : Page :=
  { BrandTracker.plainPage id index "" with questionOrder := .random, groupOrder := .random }

/-- A shuffled group. -/
def group : Group where
  id := .text "p9"
  pageId := .text "p9"
  index := .int 0
  title := .text ""
  visibleIf := none
  questionOrder := .random

/-- A question with shuffled choices. -/
def question (id pageId : String) : Question :=
  { BrandTracker.plainQuestion id pageId id .singleChoice "" with choiceOrder := .random }

/-- A survey with one id for a page, a group and a question, and with ids that are empty or look
like parts of keys. -/
def survey : Survey where
  id := .text "same_ids"
  name := .text ""
  pages := [page "p9" 0, page "" 1]
  groups := [group]
  questions := [question "p9" "p9", question "group/p9:RANDOM" "p9", question ":" ""]
  jumpRules := []
  pageJumpRules := []
  batteries := []
  metadata := .ofEntries []

end Sample.SameIds

open Sample.SameIds in
/-- The group and the page with one id, and a question that is not on the other page. -/
theorem OrderedList.orders_apart_sameIds :
    survey.Labelled ∧ (questionsOf group).key .random ≠ (standaloneOf (page "p9" 0)).key .random ∧
      ∀ r : Renderer, r.survey = survey →
        Disregards ((choicesOf (question "p9" "p9")).key .random) (r.page (.text "")) := by
  have hlabelled : survey.Labelled := ⟨⟨by decide, by decide⟩, ⟨by decide, by decide⟩,
    ⟨by decide, by decide⟩⟩
  obtain ⟨-, hlists, hrender⟩ := orders_apart hlabelled
  have hgroup : (questionsOf group).IsOf survey := List.mem_cons_self
  have hpage : (standaloneOf (page "p9" 0)).IsOf survey := List.mem_cons_self
  have hquestion : (choicesOf (question "p9" "p9")).IsOf survey := List.mem_cons_self
  refine ⟨hlabelled, (hlists _ _ _ _ hgroup hpage (by simp)).1, fun r hr => ?_⟩
  refine (hrender r hr _ _ hquestion).2.2 _ fun p hp hon => ?_
  obtain rfl : page "" 1 = p := Option.some.inj hp
  have hpageId := (List.mem_filter.1 ((sortedBy_perm _ _).mem_iff.1 hon)).2
  exact absurd hpageId (by decide)

end Questionnaire
