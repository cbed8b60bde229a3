import Questionnaire.Document.Json.Printer
import Questionnaire.Session.Document
import Questionnaire.Sorted
import Questionnaire.Survey.Document

/-!
# Records

A survey or session that is kept as text is kept as a record: its document as JSON, with what stands
under ids in the order of the ids. Ids that are not texts are written as JSON writes such values.
Texts and numbers have no common order, so what keeps things under both has no record.
-/

namespace Questionnaire

namespace Record

/-- The key of an id. -/
def keyOf : Id → String
  | .null => "null"
  | .bool b => if b then "true" else "false"
  | .float x => x.text Json.layout
  | id => id.display

/-- The record of a register: its entries in the order of their ids. -/
def ofRegister (r : Register Value) : Value :=
  if r.others.isEmpty then .ofDict r.texts
  else .map ((sortedBy Prod.fst r.entries).map fun e => (keyOf e.1, e.2))

/-- Fails unless the ids in a register have an order. -/
def demandOrder {α : Type} (r : Register α) : Except Fault Unit :=
  demandComparable (r.entries.map Prod.fst)

end Record

/-- The text of a session's record. -/
def Session.record (s : Session) : Except Fault String := do
  Record.demandOrder s.responses
  Record.demandOrder s.embedded
  Record.demandOrder s.plans
  (s.plans.entries.flatMap fun e => e.2.items).forM fun i => Record.demandOrder i.attributes
  .ok (Json.print (s.documentWith Record.ofRegister))

/-- The text of a survey's record. -/
def Survey.record (s : Survey) : Except Fault String := do
  (s.batteries.flatMap Battery.rows).forM fun r => Record.demandOrder r.attributes
  .ok (Json.print (s.documentWith Record.ofRegister))

end Questionnaire
