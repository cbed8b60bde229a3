import Questionnaire.Flow

/-!
# Open verdicts

What is shown must not depend on an author's mistake. So a condition whose text fails for a reason
the author could mend counts as one that holds, and the failure is logged. The failures left are
those of `Failure.fault`: an integer too large for a binary number, a condition that is not a text
and a question under whose id no answer can be kept.
-/

namespace Questionnaire

/-- What a session lets a condition on a survey's questions read. -/
def Session.context (s : Session) (survey : Survey) : Context :=
  ⟨s.responses, s.embedded, survey.questions⟩

namespace Context

open Condition

/-- The open verdict on the text of a condition, and what is logged: a blank text holds without a
word. -/
def judgeOpen (ctx : Context) (quiet : Bool) (text : String) : Except Fault Bool × List Event :=
  if Text.isAllBlank text then (.ok true, [])
  else
    match ctx.judge text with
    | .ok b => (.ok b, [.conditionJudged text b])
    | .error e =>
      if e.isAuthoring then (.ok true, [.conditionFailedOpen quiet text e])
      else (.error e.fault, [])

/-- The open verdict on what an author wrote as a condition; nothing holds without a word. -/
def judgeOpenAuthored (ctx : Context) (quiet : Bool) : Value → Except Fault Bool × List Event
  | .null => (.ok true, [])
  | .text s => ctx.judgeOpen quiet s
  | _ => (.error .conditionNotText, [])

/-- Whether something with an authored condition is shown; without one it is. -/
def shows (ctx : Context) (quiet : Bool) (criterion : Option Criterion) : Flow Bool := do
  let written := (criterion.map Criterion.text).getD .null
  let (verdict, events) := ctx.judgeOpenAuthored quiet written
  Flow.logAll events
  Flow.ofResult verdict

/-- Whether a choice of a question is shown: it must be shown itself, and so must the choice group
that it names, if the question has that group. -/
def showsChoice (ctx : Context) (quiet : Bool) (choice : Choice) (question : Option Question) :
    Flow Bool := do
  if ← ctx.shows quiet choice.visibleIf then
    match question.bind fun q => (choice.groupKey.given?).bind q.choiceGroup? with
    | some g => ctx.shows quiet g.visibleIf
    | none => pure true
  else pure false

end Context

end Questionnaire
