import Questionnaire.Document.Reading
import Questionnaire.Session.Basic

/-!
# Documents of sessions

A session's document has all its members; loop plans and orders stand together under `render_state`.
A document that someone else wrote may lack members, or hold a list where a dictionary is meant;
only the two ids must be there.

What stands under an id that is not a text has the text of the id for a key in the document.
-/

namespace Questionnaire

open Document

/-! ## Loop plans -/

/-- The document of a loop item, with registers written by `write`. -/
def LoopItem.documentWith (write : Register Value → Value) (i : LoopItem) : Value := ofMembers
  [("key", i.key), ("label", i.label), ("attributes", write i.attributes)]

/-- The document of a loop item. -/
def LoopItem.toDocument : LoopItem → Value := documentWith ofRegister

/-- Reads a loop item; the label is the key unless it is given. -/
def LoopItem.ofDocument (d : Value) : Reading LoopItem := do
  let key ← required d "key"
  let label ← optional d "label" key
  let attributes ← asRegister (← optional d "attributes" (.map []))
  .ok { key := key, label := label, attributes := attributes }

/-- The document of a loop plan, with registers written by `write`. -/
def LoopPlan.documentWith (write : Register Value → Value) (p : LoopPlan) : Value := ofMembers
  [("battery_id", p.batteryId), ("items", ofList (LoopItem.documentWith write) p.items),
    ("cursor", p.cursor)]

/-- The document of a loop plan. -/
def LoopPlan.toDocument : LoopPlan → Value := documentWith ofRegister

/-- Reads a loop plan. -/
def LoopPlan.ofDocument (d : Value) : Reading LoopPlan := do
  let batteryId ← required d "battery_id"
  let items ← asList LoopItem.ofDocument (← optional d "items" (.list []))
  let cursor ← optional d "cursor" (.int 0)
  .ok { batteryId := batteryId, items := items, cursor := cursor }

/-! ## Sessions -/

namespace Session

/-- The document of the orders of a session. -/
def ordersDocument (s : Session) : Value := .ofDict (s.orders.map fun _ ids => .list ids)

/-- The document of the loop plans of a session, with registers written by `write`. -/
def plansWith (write : Register Value → Value) (s : Session) : Value :=
  write (s.plans.map (LoopPlan.documentWith write))

/-- The document of the loop plans of a session. -/
def plansDocument : Session → Value := plansWith ofRegister

/-- The document of a session, with registers written by `write`. -/
def documentWith (write : Register Value → Value) (s : Session) : Value := ofMembers
  [("session_id", s.id), ("survey_id", s.surveyId), ("responses", write s.responses),
    ("embedded_data", write s.embedded),
    ("render_state", ofMembers
      [("loop_plans", s.plansWith write), ("order_cache", s.ordersDocument)]),
    ("current_page_id", .orNull s.currentPage), ("history", .list s.history),
    ("completed", s.completed), ("terminated", s.terminated),
    ("termination_reason", .orNull s.terminationReason), ("version", s.version)]

/-- The document of a session. -/
def toDocument : Session → Value := documentWith ofRegister

/-- Reads a session. -/
def ofDocument (d : Value) : Reading Session := do
  let render ← optional d "render_state" (.map [])
  let id ← required d "session_id"
  let surveyId ← required d "survey_id"
  let responses ← asRegister (← optional d "responses" (.map []))
  let embedded ← asRegister (← optional d "embedded_data" (.map []))
  let plans ← asDictOf LoopPlan.ofDocument (← optional render "loop_plans" (.map []))
  let orders ← asDictOf elements (← optional render "order_cache" (.map []))
  let currentPage ← optional d "current_page_id" .null
  let history ← elements (← optional d "history" (.list []))
  let completed ← optional d "completed" (.bool false)
  let terminated ← optional d "terminated" (.bool false)
  let terminationReason ← optional d "termination_reason" .null
  let version ← optional d "version" (.int 0)
  .ok { id := id, surveyId := surveyId, responses := responses, embedded := embedded,
        plans := .ofTexts plans, orders := orders, currentPage := currentPage.given?,
        history := history, completed := completed, terminated := terminated,
        terminationReason := terminationReason.given?, version := version }

end Session

end Questionnaire
