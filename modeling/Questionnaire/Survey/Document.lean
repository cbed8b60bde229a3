import Questionnaire.Document.Reading
import Questionnaire.Survey.Basic

/-!
# Documents of surveys

Each part of a survey has a document with all its members, and is read from a document in which the
members with a default may be missing. Members that are not known are not looked at.
-/

namespace Questionnaire

open Document

/-! ## Conditions -/

/-- The document of a condition; nothing if there is none. -/
def Criterion.toDocument : Option Criterion → Value
  | none => .null
  | some c => ofMembers
    [("id", c.id), ("dsl", c.text), ("description", c.note)]

/-- Reads a condition, or that there is none. -/
def Criterion.ofDocument : Value → Reading (Option Criterion)
  | .null => .ok none
  | d => do
    let id ← required d "id"
    let body ← optional d "dsl" (.text "")
    let note ← optional d "description" .null
    .ok (some { id := id, text := body, note := note })

/-- Reads the condition that is a member of a document. -/
def Criterion.ofMember (d : Value) (key : String) : Reading (Option Criterion) := do
  ofDocument (← optional d key .null)

/-- Reads the order mode that is a member of a document. -/
def OrderMode.ofMember (d : Value) (key : String) : Reading OrderMode := do
  oneOf "OrderMode" OrderMode.ofCode? (← optional d key (.text "SEQUENTIAL"))

/-! ## Pages, groups and questions -/

/-- The document of a page. -/
def Page.toDocument (p : Page) : Value := ofMembers
  [("id", p.id), ("index", p.index), ("title", p.title),
    ("visible_if", Criterion.toDocument p.visibleIf),
    ("question_order_mode", .text p.questionOrder.code),
    ("group_order_mode", .text p.groupOrder.code)]

/-- Reads a page. -/
def Page.ofDocument (d : Value) : Reading Page := do
  let id ← required d "id"
  let index ← required d "index"
  let title ← optional d "title" (.text "")
  let visibleIf ← Criterion.ofMember d "visible_if"
  let questionOrder ← OrderMode.ofMember d "question_order_mode"
  let groupOrder ← OrderMode.ofMember d "group_order_mode"
  .ok { id := id, index := index, title := title, visibleIf := visibleIf,
        questionOrder := questionOrder, groupOrder := groupOrder }

/-- The document of a group. -/
def Group.toDocument (g : Group) : Value := ofMembers
  [("id", g.id), ("page_id", g.pageId), ("index", g.index),
    ("title", g.title), ("visible_if", Criterion.toDocument g.visibleIf),
    ("question_order_mode", .text g.questionOrder.code)]

/-- Reads a group. -/
def Group.ofDocument (d : Value) : Reading Group := do
  let id ← required d "id"
  let pageId ← required d "page_id"
  let index ← optional d "index" (.int 0)
  let title ← optional d "title" (.text "")
  let visibleIf ← Criterion.ofMember d "visible_if"
  let questionOrder ← OrderMode.ofMember d "question_order_mode"
  .ok { id := id, pageId := pageId, index := index, title := title, visibleIf := visibleIf,
        questionOrder := questionOrder }

/-- The document of a choice. -/
def Choice.toDocument (c : Choice) : Value := ofMembers
  [("id", c.id), ("value", c.value), ("label", c.label),
    ("index", c.index), ("visible_if", Criterion.toDocument c.visibleIf),
    ("group_key", c.groupKey), ("weight", c.weight)]

/-- Reads a choice. -/
def Choice.ofDocument (d : Value) : Reading Choice := do
  let id ← required d "id"
  let value ← required d "value"
  let label ← optional d "label" (.text "")
  let index ← optional d "index" (.int 0)
  let visibleIf ← Criterion.ofMember d "visible_if"
  let groupKey ← optional d "group_key" .null
  let weight ← optional d "weight" .null
  .ok { id := id, value := value, label := label, index := index, visibleIf := visibleIf,
        groupKey := groupKey, weight := weight }

/-- The document of a choice group. -/
def ChoiceGroup.toDocument (g : ChoiceGroup) : Value := ofMembers
  [("key", g.key), ("label", g.label),
    ("visible_if", Criterion.toDocument g.visibleIf)]

/-- Reads a choice group. -/
def ChoiceGroup.ofDocument (d : Value) : Reading ChoiceGroup := do
  let key ← required d "key"
  let label ← optional d "label" (.text "")
  let visibleIf ← Criterion.ofMember d "visible_if"
  .ok { key := key, label := label, visibleIf := visibleIf }

/-- The document of a question. -/
def Question.toDocument (q : Question) : Value := ofMembers
  [("id", q.id), ("page_id", q.pageId), ("variable_name", q.variableName),
    ("type", .text q.kind.code), ("text", q.text), ("index", q.index),
    ("group_id", q.groupId), ("option_order_mode", .text q.choiceOrder.code),
    ("visible_if", Criterion.toDocument q.visibleIf),
    ("options", ofList Choice.toDocument q.choices),
    ("option_groups", ofList ChoiceGroup.toDocument q.choiceGroups),
    ("carry_forward_question_id", q.carryFrom),
    ("carry_forward_filter", .text q.carryFilter.code),
    ("terminate_if", Criterion.toDocument q.terminateIf)]

/-- Reads a question. -/
def Question.ofDocument (d : Value) : Reading Question := do
  let id ← required d "id"
  let pageId ← required d "page_id"
  let variableName ← required d "variable_name"
  let kind ← oneOf "QuestionType" QuestionKind.ofCode?
    (← optional d "type" (.text "SINGLE_CHOICE"))
  let wording ← optional d "text" (.text "")
  let index ← optional d "index" (.int 0)
  let groupId ← optional d "group_id" .null
  let choiceOrder ← OrderMode.ofMember d "option_order_mode"
  let visibleIf ← Criterion.ofMember d "visible_if"
  let choices ← asList Choice.ofDocument (← optional d "options" (.list []))
  let choiceGroups ← asList ChoiceGroup.ofDocument (← optional d "option_groups" (.list []))
  let carryFrom ← optional d "carry_forward_question_id" .null
  let carryFilter ← oneOf "CarryForwardFilter" CarryFilter.ofCode?
    (← optional d "carry_forward_filter" (.text "SELECTED"))
  let terminateIf ← Criterion.ofMember d "terminate_if"
  .ok { id := id, pageId := pageId, variableName := variableName, kind := kind, text := wording,
        index := index, groupId := groupId, choiceOrder := choiceOrder, visibleIf := visibleIf,
        choices := choices, choiceGroups := choiceGroups, carryFrom := carryFrom,
        carryFilter := carryFilter, terminateIf := terminateIf }

/-! ## Jump rules -/

/-- The document of a destination. -/
def Destination.toDocument (d : Destination) : Value := ofMembers
  [("type", .text d.kind.code), ("target_id", d.target)]

/-- Reads a destination. -/
def Destination.ofDocument (d : Value) : Reading Destination := do
  let kind ← oneOf "DestinationType" DestinationKind.ofCode? (← required d "type")
  let target ← optional d "target_id" .null
  .ok { kind := kind, target := target }

/-- The document of a jump rule whose source is the given member. -/
def JumpRule.toDocumentFrom (sourceKey : String) (r : JumpRule) : Value := ofMembers
  [("id", r.id), (sourceKey, r.source),
    ("destination", r.destination.toDocument),
    ("condition", Criterion.toDocument r.condition), ("priority", r.priority)]

/-- Reads a jump rule whose source is the given member. -/
def JumpRule.ofDocumentFrom (sourceKey : String) (d : Value) : Reading JumpRule := do
  let id ← required d "id"
  let source ← required d sourceKey
  let destination ← Destination.ofDocument (← required d "destination")
  let condition ← Criterion.ofMember d "condition"
  let priority ← optional d "priority" (.int 0)
  .ok { id := id, source := source, destination := destination, condition := condition,
        priority := priority }

/-- The document of a question's jump rule. -/
def JumpRule.toDocument : JumpRule → Value := toDocumentFrom "source_question_id"

/-- Reads a question's jump rule. -/
def JumpRule.ofDocument : Value → Reading JumpRule := ofDocumentFrom "source_question_id"

/-- The document of a page's jump rule. -/
def JumpRule.toPageDocument : JumpRule → Value := toDocumentFrom "source_page_id"

/-- Reads a page's jump rule. -/
def JumpRule.ofPageDocument : Value → Reading JumpRule := ofDocumentFrom "source_page_id"

/-! ## Batteries -/

/-- The document of a dataset row, with registers written by `write`. -/
def DatasetRow.documentWith (write : Register Value → Value) (r : DatasetRow) : Value := ofMembers
  [("key", r.key), ("attributes", write r.attributes), ("is_active", r.active),
    ("sort_index", r.sortIndex)]

/-- The document of a dataset row. -/
def DatasetRow.toDocument : DatasetRow → Value := documentWith ofRegister

/-- Reads a dataset row. -/
def DatasetRow.ofDocument (d : Value) : Reading DatasetRow := do
  let key ← required d "key"
  let attributes ← asRegister (← optional d "attributes" (.map []))
  let active ← optional d "is_active" (.bool true)
  let sortIndex ← optional d "sort_index" (.int 0)
  .ok { key := key, attributes := attributes, active := active, sortIndex := sortIndex }

/-- The document of a battery, with registers written by `write`. -/
def Battery.documentWith (write : Register Value → Value) (b : Battery) : Value := ofMembers
  [("id", b.id), ("name", b.name), ("start_page_id", b.startPageId),
    ("end_page_id", b.endPageId), ("source_type", .text b.source.code),
    ("source_question_id", b.sourceQuestionId),
    ("max_items", b.maxItems), ("randomize", b.randomize),
    ("sample_without_replacement", b.sampleWithoutReplacement),
    ("dataset_items", ofList (DatasetRow.documentWith write) b.rows)]

/-- The document of a battery. -/
def Battery.toDocument : Battery → Value := documentWith ofRegister

/-- Reads a battery. -/
def Battery.ofDocument (d : Value) : Reading Battery := do
  let id ← required d "id"
  let name ← optional d "name" (.text "")
  let startPageId ← required d "start_page_id"
  let endPageId ← required d "end_page_id"
  let source ← oneOf "LoopSourceType" LoopSource.ofCode?
    (← optional d "source_type" (.text "DATASET"))
  let sourceQuestionId ← optional d "source_question_id" .null
  let maxItems ← optional d "max_items" .null
  let randomize ← optional d "randomize" (.bool false)
  let sampleWithoutReplacement ← optional d "sample_without_replacement" (.bool true)
  let rows ← asList DatasetRow.ofDocument (← optional d "dataset_items" (.list []))
  .ok { id := id, name := name, startPageId := startPageId, endPageId := endPageId,
        source := source, sourceQuestionId := sourceQuestionId, maxItems := maxItems,
        randomize := randomize, sampleWithoutReplacement := sampleWithoutReplacement,
        rows := rows }

/-! ## Surveys -/

/-- The document of a survey, with registers written by `write`. -/
def Survey.documentWith (write : Register Value → Value) (s : Survey) : Value := ofMembers
  [("id", s.id), ("name", s.name), ("pages", ofList Page.toDocument s.pages),
    ("groups", ofList Group.toDocument s.groups),
    ("questions", ofList Question.toDocument s.questions),
    ("jump_rules", ofList JumpRule.toDocument s.jumpRules),
    ("page_jump_rules", ofList JumpRule.toPageDocument s.pageJumpRules),
    ("loop_batteries", ofList (Battery.documentWith write) s.batteries), ("metadata", s.metadata)]

/-- The document of a survey. -/
def Survey.toDocument : Survey → Value := documentWith ofRegister

/-- Reads a survey. -/
def Survey.ofDocument (d : Value) : Reading Survey := do
  let id ← required d "id"
  let name ← optional d "name" (.text "")
  let pages ← asList Page.ofDocument (← optional d "pages" (.list []))
  let groups ← asList Group.ofDocument (← optional d "groups" (.list []))
  let questions ← asList Question.ofDocument (← optional d "questions" (.list []))
  let jumpRules ← asList JumpRule.ofDocument (← optional d "jump_rules" (.list []))
  let pageJumpRules ← asList JumpRule.ofPageDocument (← optional d "page_jump_rules" (.list []))
  let batteries ← asList Battery.ofDocument (← optional d "loop_batteries" (.list []))
  let metadata ← optional d "metadata" (.map [])
  .ok { id := id, name := name, pages := pages, groups := groups, questions := questions,
        jumpRules := jumpRules, pageJumpRules := pageJumpRules, batteries := batteries,
        metadata := metadata }

end Questionnaire
