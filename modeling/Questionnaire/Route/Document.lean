import Questionnaire.Route.Jump
import Questionnaire.Route.Navigator
import Questionnaire.Session.Document
import Questionnaire.Survey.Document

/-!
# Documents of movements

Where a respondent gets, which jump fired and how far a battery has come, as documents for the
layer that talks to the respondent.
-/

namespace Questionnaire

open Document

/-- The document of an iteration; it shows a percentage, so there must be one. -/
def Iteration.toDocument (i : Iteration) : Except Fault Value := do
  .ok <| ofMembers
    [("battery_id", i.batteryId), ("item", i.item.toDocument), ("index", i.index),
      ("total", i.total), ("is_first", .bool i.isFirst), ("is_last", .bool (← i.isLast)),
      ("percent", .float (← i.percent))]

/-- The document of an iteration, or of nothing. -/
def Iteration.toDocument? : Option Iteration → Except Fault Value
  | none => .ok .null
  | some i => i.toDocument

/-- The document of a landing. -/
def Landing.toDocument (l : Landing) : Except Fault Value := do
  .ok <| ofMembers
    [("page_id", .orNull l.pageId), ("loop", ← Iteration.toDocument? l.iteration),
      ("completed", .bool l.completed), ("terminated", .bool l.terminated),
      ("termination_reason", .orNull l.terminationReason),
      ("is_loop_iteration", .bool l.iteration.isSome)]

/-- The document of a jump's outcome. -/
def JumpOutcome.toDocument (o : JumpOutcome) : Value := ofMembers
  [("rule_id", o.ruleId), ("destination", o.destination.toDocument),
    ("page_id", .orNull o.pageId), ("termination_reason", .orNull o.terminationReason),
    ("ends_survey", .bool o.endsSurvey), ("terminates", .bool o.terminates)]

/-- The document of a battery's progress. -/
def Progress.toDocument (p : Progress) : Value := ofMembers
  [("battery_id", p.batteryId), ("current_iteration", p.number),
    ("total_iterations", p.total), ("percent_complete", .float p.percent),
    ("current_item", p.item.toDocument), ("is_first", .bool p.isFirst),
    ("is_last", .bool p.isLast), ("is_complete", .bool p.isComplete)]

end Questionnaire
