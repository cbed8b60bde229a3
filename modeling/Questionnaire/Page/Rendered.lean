import Questionnaire.Condition.Open
import Questionnaire.Page.Carried
import Questionnaire.Page.Order
import Questionnaire.Page.Resolved

/-!
# Rendered pages

A page is rendered for one respondent in three steps: what is hidden is left out, what is left is
put in order, and tokens are replaced. Questions that belong to no group of their page form a group
of their own behind the authored ones. Rendering changes nothing in the session but the orders that
it draws for the first time.
-/

namespace Questionnaire

/-- A choice as shown. -/
structure RenderedChoice where
  id : Id
  value : Value
  label : String
  groupKey : Id
  deriving DecidableEq

/-- A question as shown. -/
structure RenderedQuestion where
  id : Id
  variableName : Id
  kind : QuestionKind
  text : String
  choices : List RenderedChoice
  deriving DecidableEq

/-- A group as shown; the implicit one holds the questions without a group. -/
structure RenderedGroup where
  id : Id
  title : String
  questions : List RenderedQuestion
  implicit : Bool
  deriving DecidableEq

/-- A page as shown. -/
structure RenderedPage where
  pageId : Id
  title : String
  groups : List RenderedGroup
  isVisible : Bool
  iteration : Option Iteration
  deriving DecidableEq

/-- The questions of a page in display order. -/
def RenderedPage.questions (p : RenderedPage) : List RenderedQuestion :=
  p.groups.flatMap RenderedGroup.questions

/-- What rendering needs besides the desk. -/
structure Renderer where
  survey : Survey
  iteration : Option Iteration
  weighting : Weighting
  quiet : Bool

namespace Renderer

/-- The id of the group of questions without a group. -/
def standaloneId : Id := .text "standalone"

/-- The last element with an id. -/
def withId? {α : Type} (idOf : α → Id) (l : List α) (id : Id) : Option α :=
  l.reverse.find? fun a => (idOf a).agrees id

/-- The elements with the given ids, in the order of the ids. -/
def pick {α : Type} (idOf : α → Id) (l : List α) (ids : List Id) : List α :=
  ids.filterMap (withId? idOf l)

/-- The elements that pass a test, tried in order. -/
def keep {α : Type} (test : α → Flow Bool) : List α → Flow (List α)
  | [] => pure []
  | a :: r => do
    let passes ← test a
    let rest ← keep test r
    pure (if passes then a :: rest else rest)

variable (r : Renderer)

/-- Whether something with an authored condition is shown. -/
def shows (criterion : Option Criterion) : Flow Bool := do
  ((← Flow.session).context r.survey).shows r.quiet criterion

/-- What an author wrote as a text, with its tokens replaced. -/
def wording (text : Value) : Flow String := do
  let s ← Flow.session
  Flow.ofResult <| Wording.resolveAuthored text r.iteration r.survey.questions s.responses
    (some s.embedded)

/-- A choice as shown. -/
def choice (c : Choice) : Flow RenderedChoice := do
  let label ← r.wording c.label
  pure { id := c.id, value := c.value, label := label, groupKey := c.groupKey }

/-- A question as shown, with those of its own and carried choices that are shown. -/
def question (q : Question) : Flow RenderedQuestion := do
  let s ← Flow.session
  let choices ← Carried.choicesOf q r.survey
  let shown ← keep (fun c => (s.context r.survey).showsChoice r.quiet c (some q)) choices
  let ids ← Order.arrange r.weighting "option" q.id.display q.choiceOrder
    (shown.map fun c => ⟨c.id, c.groupKey, c.weight⟩)
  Flow.demandKeys (shown.map Choice.id)
  let text ← r.wording q.text
  let choices ← (pick Choice.id shown ids).mapM r.choice
  pure { id := q.id, variableName := q.variableName, kind := q.kind, text := text,
         choices := choices }

/-- Questions as shown, under the owner of their order. -/
def questions (owner : String) (mode : OrderMode) (qs : List Question) :
    Flow (List RenderedQuestion) := do
  let shown ← keep (fun q => r.shows q.visibleIf) qs
  let ids ← Order.arrange r.weighting "question" owner mode
    (shown.map fun q => .plain q.id)
  Flow.demandKeys (shown.map Question.id)
  (pick Question.id shown ids).mapM r.question

/-- The owner of the order of a group's questions. -/
def groupOwner (groupId : Id) : String := "group/" ++ groupId.display

/-- The owner of the order of the questions of a page that have no group. -/
def pageOwner (pageId : Id) : String := "page/" ++ pageId.display

/-- An authored group as shown; none if it is hidden. -/
def group? (onPage : List Question) (g : Group) : Flow (Option RenderedGroup) := do
  if ← r.shows g.visibleIf then
    let title ← r.wording g.title
    let members := onPage.filter fun q => q.groupId.equal g.id
    let questions ← r.questions (groupOwner g.id) g.questionOrder members
    pure (some { id := g.id, title := title, questions := questions, implicit := false })
  else pure none

/-- The questions that belong to none of the groups. -/
def standalone (onPage : List Question) (groups : List Group) : List Question :=
  onPage.filter fun q => q.groupId == .null || !q.groupId.isAmong (groups.map Group.id)

/-- The groups of a page that are shown, in authored order, the implicit one last. -/
def groups (p : Page) : Flow (List RenderedGroup) := do
  let onPage := r.survey.questionsOnPage p.id
  Flow.demandComparable (onPage.map Question.index)
  let authored := r.survey.groupsOnPage p.id
  Flow.demandComparable (authored.map Group.index)
  let shown ← authored.mapM (r.group? onPage)
  Flow.demandKeys (authored.map Group.id ++ onPage.map Question.groupId)
  let rest := standalone onPage authored
  if rest.isEmpty then pure (shown.filterMap id)
  else do
    let questions ← r.questions (pageOwner p.id) p.questionOrder rest
    pure ((shown.filterMap id) ++
      [{ id := standaloneId, title := "", questions := questions, implicit := true }])

/-- The page with an id as shown. -/
def page (pageId : Id) : Flow RenderedPage := do
  match r.survey.page? pageId with
  | none => throw (.unknownPage pageId)
  | some p =>
    if ← r.shows p.visibleIf then
      let groups ← r.groups p
      let ids ← Order.arrange r.weighting "group" p.id.display p.groupOrder
        (groups.map fun g => .plain g.id)
      let title ← r.wording p.title
      pure { pageId := p.id, title := title, groups := pick RenderedGroup.id groups ids,
             isVisible := true, iteration := r.iteration }
    else
      let title ← r.wording p.title
      pure { pageId := p.id, title := title, groups := [], isVisible := false,
             iteration := r.iteration }

end Renderer

end Questionnaire
