import Questionnaire.Flow
import Questionnaire.Survey.Lookup

/-!
# Planning loops

The items of a battery are the selections of its source question, labelled as the choices are, or
the active rows of its dataset in the order of their sort indexes (`Planning.sourceItems`). A plan
takes them once, in random order if the battery says so, and at most as many as the battery allows.
-/

namespace Questionnaire.Planning

/-- The item of a dataset row: its label is the attribute of that name if it is given, and else the
key. -/
def rowItem (row : DatasetRow) : LoopItem :=
  let label := ((row.attributes.get? (.text "label")).filter Value.isTruthy).getD row.key
  ⟨row.key, .text label.display, row.attributes⟩

/-- The item of a selected choice. -/
def choiceItem (c : Choice) : LoopItem :=
  ⟨.text c.value.display, c.label, .ofTexts (Dict.ofList [("value", c.value), ("label", c.label)])⟩

/-- The choices that values select, each value once. -/
def selectedChoices (q : Question) : List Value → List Value → List Choice
  | _, [] => []
  | seen, v :: r =>
    match q.choiceWithValue? v with
    | none => selectedChoices q seen r
    | some c =>
      if c.value.isAmong seen then selectedChoices q seen r
      else c :: selectedChoices q (c.value :: seen) r

/-- The source question of a battery. -/
def sourceQuestion? (b : Battery) (survey : Survey) : Option Question :=
  if b.sourceQuestionId.isTruthy then survey.question? b.sourceQuestionId else none

/-- The values that the answer to a question selects. -/
def selectedValues (q : Question) (responses : Register Value) : List Value :=
  ((responses.get? q.id).getD .null).selections

/-- The items of a battery in the order of their source. -/
def sourceItems (b : Battery) (survey : Survey) (responses : Register Value) : List LoopItem :=
  match b.source with
  | .dataset => (sortedBy DatasetRow.sortIndex (b.rows.filter DatasetRow.isActive)).map rowItem
  | .answer =>
    match sourceQuestion? b survey with
    | none => []
    | some q => (selectedChoices q [] (selectedValues q responses)).map choiceItem

/-- Fails unless the items of a battery can be listed: the sort indexes of its rows must be
comparable, and neither the id of its source question nor the value of a selected choice may be a
list or a mapping. -/
def demandListable (b : Battery) (survey : Survey) (responses : Register Value) :
    Except Fault Unit :=
  match b.source with
  | .dataset => demandComparable ((b.rows.filter DatasetRow.isActive).map DatasetRow.sortIndex)
  | .answer =>
    match sourceQuestion? b survey with
    | none => .ok ()
    | some q => do
      demandKeys [q.id]
      demandKeys (((selectedValues q responses).filterMap q.choiceWithValue?).map Choice.value)

/-- The warnings about a battery's source. -/
def sourceEvents (b : Battery) (survey : Survey) : List Event :=
  match b.source with
  | .dataset => []
  | .answer =>
    match sourceQuestion? b survey with
    | none => [.sourceMissing b.id]
    | some q => if q.isMultiSelect then [] else [.sourceNotMultiSelect b.id q.id]

/-- The greatest number of items of a battery; none, or one below one, is no limit. -/
def limit? (b : Battery) : Except Fault (Option Nat) :=
  match b.maxItems with
  | .null => .ok none
  | .bool yes => .ok (if yes then some 1 else none)
  | .int n => .ok (if 0 < n then some n.toNat else none)
  | .float x => if x.compareInt? 0 == some .gt then .error .wrongKind else .ok none
  | _ => .error .wrongKind

/-- The items up to a limit. -/
def limited {α : Type} (limit : Option Nat) (items : List α) : List α :=
  match limit with
  | some n => items.take n
  | none => items

/-- A new plan of a battery, if there is anything to iterate over. -/
def newPlan (b : Battery) (survey : Survey) (responses : Register Value) :
    Flow (Option LoopPlan) := do
  Flow.logAll (sourceEvents b survey)
  Flow.ofResult (demandListable b survey responses)
  let items := sourceItems b survey responses
  if items.isEmpty then
    Flow.log (.plannedNothing b.id)
    pure none
  else
    let items ← if b.isRandomized then Flow.drawn (Generator.shuffle items) else pure items
    let items := limited (← Flow.ofResult (limit? b)) items
    Flow.log (.planned b.id items.length)
    pure (some ⟨b.id, items, .int 0⟩)

end Questionnaire.Planning
