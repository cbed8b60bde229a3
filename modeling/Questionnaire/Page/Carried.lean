import Questionnaire.Flow
import Questionnaire.Survey.Lookup

/-!
# Carried choices

A question may reuse the choices of an earlier one, filtered by what the respondent did there. The
carried choices follow the question's own in the order of their indexes; one whose value the
question already offers is dropped. Their ids and indexes are new, all else is that of the source.
-/

namespace Questionnaire.Carried

/-- The texts of the selected values of an answer. -/
def selectedTexts : Value → List String
  | .text s => if s == "" then [] else [s]
  | v => v.selections.map Value.display

/-- The id of a carried choice. -/
def carriedId (id : Id) : Id := .text ("cf_" ++ id.display)

/-- Whether a filter lets the text of a value through. -/
def passes (filter : CarryFilter) (selected : List String) (value : String) : Bool :=
  match filter with
  | .selected => selected.contains value
  | .unselected => !selected.contains value
  | .all => true

/-- The text of a choice's value, by which choices are told apart here. -/
def valueText (c : Choice) : String := c.value.display

/-- The greatest of a list of indexes that starts with `i`; of equal ones the first. -/
def greatest (i : Value) (r : List Value) : Value :=
  r.foldl (fun m v => if m.less v then v else m) i

/-- The first index after those of a question's own choices. -/
def firstIndex (own : List Choice) : Value :=
  match own.map Choice.index with
  | [] => .int 0
  | i :: r => (greatest i r).shifted 1

/-- Choices with carried ids, numbered some steps after a first index. -/
def renumbered (first : Value) : Nat → List Choice → List Choice
  | _, [] => []
  | n, c :: r =>
    { c with id := carriedId c.id, index := first.shifted n } :: renumbered first (n + 1) r

/-- The choices of a source question that a filter lets through. -/
def picked (filter : CarryFilter) (source : Question) (answer : Value) : List Choice :=
  source.choices.filter fun c => passes filter (selectedTexts answer) (valueText c)

/-- The choices carried from a source question into one with the given own choices. -/
def carriedFrom (own : List Choice) (filter : CarryFilter) (source : Question) (answer : Value) :
    List Choice :=
  let values := own.map valueText
  let inOrder := sortedBy Choice.index (picked filter source answer)
  renumbered (firstIndex own) 0 (inOrder.filter fun c => !values.contains (valueText c))

/-- The choices carried into a question, and a warning if their source does not exist. -/
def carriedChoices (q : Question) (survey : Survey) (responses : Register Value) :
    List Choice × List Event :=
  if !q.carryFrom.isTruthy then ([], [])
  else
    match survey.question? q.carryFrom with
    | none => ([], [.carrySourceMissing q.id q.carryFrom])
    | some source =>
      (carriedFrom q.choices q.carryFilter source ((responses.get? source.id).getD .null), [])

/-- The own choices of a question in order, then the carried ones. -/
def allChoices (q : Question) (survey : Survey) (responses : Register Value) :
    List Choice × List Event :=
  let (carried, events) := carriedChoices q survey responses
  (sortedBy Choice.index q.choices ++ carried, events)

/-- Fails unless choices can be carried into a question: something must be kept under the id of the
source, the question's own indexes must be numbers, so that the carried choices can be numbered
after them, and the carried ones comparable. -/
def demandCarriable (q : Question) (survey : Survey) (responses : Register Value) :
    Except Fault Unit :=
  if !q.carryFrom.isTruthy then .ok ()
  else
    match survey.question? q.carryFrom with
    | none => .ok ()
    | some source => do
      demandKeys [source.id]
      if q.choices.all fun c => c.index.isNumeric then
        let answer := (responses.get? source.id).getD .null
        demandComparable ((picked q.carryFilter source answer).map Choice.index)
      else .error .wrongKind

/-- All choices of a question for the respondent of a session. -/
def choicesOf (q : Question) (survey : Survey) : Flow (List Choice) := do
  let responses := (← Flow.session).responses
  Flow.demandComparable (q.choices.map Choice.index)
  Flow.ofResult (demandCarriable q survey responses)
  Flow.logAll (allChoices q survey responses).2
  pure (allChoices q survey responses).1

end Questionnaire.Carried
