import Questionnaire.Condition.Open
import Questionnaire.Survey.Lookup

/-!
# Jumps

A jump rule leads away when its condition holds; of several the one of lowest priority wins, and of
equal priorities the one authored first. A question may also end the survey by its answer, which is
checked before its rules.

A jump must never happen by mistake: a condition that fails does not fire, and a rule whose
destination does not exist is passed over. Both are logged.
-/

namespace Questionnaire

/-- A rule or termination that fired. The page is the one to show next, none at the end of the
survey; the reason is there when an answer ended it. -/
structure JumpOutcome where
  ruleId : Id
  destination : Destination
  pageId : Option Id
  terminationReason : Option Value
  deriving DecidableEq

namespace JumpOutcome

/-- Whether the outcome ends the survey. -/
def endsSurvey (o : JumpOutcome) : Bool := o.destination.isEnd

/-- Whether an answer ended the survey. -/
def terminates (o : JumpOutcome) : Bool := o.terminationReason.isSome

end JumpOutcome

namespace Jump

/-- The reason recorded for a termination whose author gave none. -/
def defaultReason : String := "Survey terminated based on answer"

/-- The reason that a termination records: its note, unless it is missing or empty. -/
def reasonOf (c : Criterion) : Value := if c.note.isTruthy then c.note else .text defaultReason

/-- Whether a condition holds for certain; one that is blank or fails does not. -/
def fires (ctx : Context) (quiet : Bool) (owner text : String) : Flow Bool :=
  if Text.isAllBlank text then pure false
  else
    match ctx.judge text with
    | .ok b => pure b
    | .error e =>
      if e.isAuthoring then do
        Flow.log (.conditionDidNotFire quiet owner text e)
        pure false
      else throw e.fault

/-- The text of a condition that decides on a jump. -/
def textOf (c : Criterion) : Flow String :=
  match c.text with
  | .text s => pure s
  | _ => throw .conditionNotText

variable (survey : Survey) (quiet : Bool)

/-- Whether a rule's condition holds; a rule without a condition, or with a blank one, always
fires. -/
def ruleHolds (rule : JumpRule) : Flow Bool := do
  match rule.condition with
  | none => pure true
  | some c =>
    let text ← textOf c
    if Text.isAllBlank text then pure true
    else fires ((← Flow.session).context survey) quiet ("Jump rule " ++ rule.id.display) text

/-- Where a rule leads; none, with a warning, if its destination does not exist. -/
def outcome? (rule : JumpRule) : Flow (Option JumpOutcome) :=
  if rule.destination.isEnd then pure (some ⟨rule.id, rule.destination, none, none⟩)
  else
    match survey.destinationPage? rule.destination with
    | some page => pure (some ⟨rule.id, rule.destination, some page, none⟩)
    | none => do
      Flow.log (.destinationMissing quiet rule.id rule.destination)
      pure none

/-- The outcome of the first rule in the list that fires and leads somewhere. -/
def firstOf : List JumpRule → Flow (Option JumpOutcome)
  | [] => pure none
  | rule :: r => do
    if ← ruleHolds survey quiet rule then
      match ← outcome? survey quiet rule with
      | some o => pure (some o)
      | none => firstOf r
    else firstOf r

/-- The outcome of the first rule by priority that fires and leads somewhere. -/
def first (rules : List JumpRule) : Flow (Option JumpOutcome) := do
  Flow.demandComparable (rules.map JumpRule.priority)
  firstOf survey quiet (sortedBy JumpRule.priority rules)

/-- The outcome of a question's jump rules. -/
def ofQuestion (questionId : Id) : Flow (Option JumpOutcome) :=
  first survey quiet (survey.jumpRulesFor questionId)

/-- The outcome of a page's jump rules. -/
def ofPage (pageId : Id) : Flow (Option JumpOutcome) :=
  first survey quiet (survey.pageJumpRulesFor pageId)

/-- The outcome of a question's termination. -/
def termination (questionId : Id) : Flow (Option JumpOutcome) := do
  match (survey.question? questionId).bind Question.terminateIf with
  | none => pure none
  | some c =>
    let ctx := (← Flow.session).context survey
    if ← fires ctx quiet ("Termination " ++ c.id.display) (← textOf c) then
      Flow.log (.questionTerminated questionId c.id)
      pure (some ⟨c.id, Destination.atEnd, none, some (reasonOf c)⟩)
    else pure none

/-- The outcome of an answer: the question's termination, then its jump rules. -/
def ofAnswer (questionId : Id) : Flow (Option JumpOutcome) := do
  match ← termination survey quiet questionId with
  | some o => pure (some o)
  | none => ofQuestion survey quiet questionId

end Jump

end Questionnaire
