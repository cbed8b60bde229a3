import Questionnaire.Page.Rendered
import Questionnaire.Route.Document

/-!
# Documents of rendered pages

A rendered page as a document for the layer that shows it.
-/

namespace Questionnaire

open Document

/-- The document of a choice as shown. -/
def RenderedChoice.toDocument (c : RenderedChoice) : Value := ofMembers
  [("id", c.id), ("value", c.value), ("label", .text c.label),
    ("group_key", c.groupKey)]

/-- The document of a question as shown. -/
def RenderedQuestion.toDocument (q : RenderedQuestion) : Value := ofMembers
  [("id", q.id), ("variable_name", q.variableName), ("type", .text q.kind.code),
    ("text", .text q.text), ("options", ofList RenderedChoice.toDocument q.choices)]

/-- The document of a group as shown. -/
def RenderedGroup.toDocument (g : RenderedGroup) : Value := ofMembers
  [("id", g.id), ("title", .text g.title), ("implicit", .bool g.implicit),
    ("questions", ofList RenderedQuestion.toDocument g.questions)]

/-- The document of a page as shown. -/
def RenderedPage.toDocument (p : RenderedPage) : Except Fault Value := do
  .ok <| ofMembers
    [("page_id", p.pageId), ("title", .text p.title), ("is_visible", .bool p.isVisible),
      ("loop", ← Iteration.toDocument? p.iteration),
      ("flat_questions", .list (p.questions.map RenderedQuestion.id)),
      ("groups", ofList RenderedGroup.toDocument p.groups)]

end Questionnaire
