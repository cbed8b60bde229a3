import Questionnaire.Session.Plan

/-!
# Sessions

All that is known of one respondent: the answers under question ids, embedded data that came with
the respondent, the loop plans under battery ids, the orders in which things were shown, where the
respondent is and was, and how the survey ended. The version counts the writes to the store.

A session may have been stored by anyone, so the marks for its end and its version are values of any
kind. The sessions that are made here have truth values and integers for them.
-/

namespace Questionnaire

/-- The state of one respondent's session. -/
structure Session where
  id : Id
  surveyId : Id
  responses : Register Value
  embedded : Register Value
  plans : Register LoopPlan
  orders : Dict (List Id)
  currentPage : Option Id
  history : List Id
  completed : Value
  terminated : Value
  terminationReason : Option Value
  version : Value
  deriving DecidableEq, Inhabited

namespace Session

/-- A new session without answers. -/
def new (id : Id) (surveyId : Id) (embedded : Register Value) : Session where
  id := id
  surveyId := surveyId
  responses := ∅
  embedded := embedded
  plans := ∅
  orders := ∅
  currentPage := none
  history := []
  completed := .bool false
  terminated := .bool false
  terminationReason := none
  version := .int 0

/-- Whether the survey has ended for the respondent. -/
def isCompleted (s : Session) : Bool := s.completed.isTruthy

/-- Whether an answer ended the survey. -/
def isTerminated (s : Session) : Bool := s.terminated.isTruthy

/-- The answer to a question; nothing if there is none. -/
def response (s : Session) (questionId : Id) : Value := (s.responses.get? questionId).getD .null

/-- The session with an answer. -/
def respond (s : Session) (questionId : Id) (answer : Value) : Session :=
  { s with responses := s.responses.set questionId answer }

/-- The loop plan of a battery. -/
def plan? (s : Session) (batteryId : Id) : Option LoopPlan := s.plans.get? batteryId

/-- The session with a loop plan. -/
def setPlan (s : Session) (batteryId : Id) (p : LoopPlan) : Session :=
  { s with plans := s.plans.set batteryId p }

/-- The session without a battery's loop plan. -/
def dropPlan (s : Session) (batteryId : Id) : Session :=
  { s with plans := s.plans.erase batteryId }

/-- The session on a page; a page is added to the history. -/
def moveTo (s : Session) (page : Option Id) : Session :=
  { s with currentPage := page, history := s.history ++ page.toList }

end Session

end Questionnaire
