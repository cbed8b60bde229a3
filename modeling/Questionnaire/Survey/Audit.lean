import Questionnaire.Condition.Parser
import Questionnaire.Document.Reading
import Questionnaire.Fault

/-!
# Auditing a survey

Before a survey goes live its author is told what is wrong with it. Errors are what the survey can
only survive by showing too much: conditions that cannot be read, pages, questions and sources that
do not exist, pages with equal indexes, batteries that overlap. Warnings are suspicious but allowed;
a variable without a question may be embedded data. Nothing is said twice.

An audit compares indexes, tells keys apart and reads conditions. A survey in which these are of
kinds with which that cannot be done has no audit (`Survey.inspect`).
-/

namespace Questionnaire

/-- What an audit finds. -/
structure Report where
  surveyId : Id
  pages : Nat
  questions : Nat
  expressions : Nat
  jumpRules : Nat
  batteries : Nat
  usage : Dict Nat
  undefined : List String
  errors : List String
  warnings : List String

namespace Report

/-- A survey without errors. -/
def isValid (r : Report) : Bool := r.errors.isEmpty

/-- The wording of the refusal of a survey with errors. -/
def refusal (r : Report) : String :=
  "Survey " ++ r.surveyId.display ++ " has " ++ toString r.errors.length ++
    " definition error(s): " ++ "; ".intercalate r.errors

/-- The document of a report. -/
def toDocument (r : Report) : Value := Document.ofMembers
  [("survey_id", r.surveyId), ("total_pages", .int r.pages),
    ("total_questions", .int r.questions), ("total_expressions", .int r.expressions),
    ("total_jump_rules", .int r.jumpRules), ("total_loop_batteries", .int r.batteries),
    ("variable_usage", .ofDict (r.usage.map fun _ n => .int (n : Nat))),
    ("undefined_variables", Document.ofList .text r.undefined),
    ("errors", Document.ofList .text r.errors), ("warnings", Document.ofList .text r.warnings),
    ("is_valid", .bool r.isValid)]

end Report

namespace Audit

/-- Something to tell the author. -/
inductive Finding
  | error (message : String)
  | warning (message : String)
  deriving DecidableEq, Repr

/-- The first elements of a list with each key, in order. -/
def distinctBy {α κ : Type} [BEq κ] (key : α → κ) : List α → List α
  | [] => []
  | a :: r => a :: (distinctBy key r).filter fun b => !(key b == key a)

/-- The elements of a list without repeats, in the order of their first appearance. -/
def distinct {α : Type} [BEq α] (l : List α) : List α := distinctBy id l

/-- The first elements with each of the keys that several elements have, in order. -/
def repeatedBy {α κ : Type} [BEq κ] (key : α → κ) (l : List α) : List α :=
  (distinctBy key l).filter fun a => 1 < (l.map key).count (key a)

/-- The ids that appear more than once, each as it appears first. -/
def repeatedIds (l : List Id) : List Id := repeatedBy Value.canonical l

/-- The conditions of a survey, each with the part that it belongs to. -/
def criteria (s : Survey) : List (String × Criterion) :=
  let owned (owner : String) (c : Option Criterion) : List (String × Criterion) :=
    c.toList.map fun c => (owner, c)
  s.pages.flatMap (fun p => owned ("page " ++ p.id.display) p.visibleIf) ++
  s.groups.flatMap (fun g => owned ("group " ++ g.id.display) g.visibleIf) ++
  s.questions.flatMap (fun q =>
    owned ("question " ++ q.id.display) q.visibleIf ++
    q.choiceGroups.flatMap (fun g =>
      owned ("option group " ++ q.id.display ++ "/" ++ g.key.display) g.visibleIf) ++
    q.choices.flatMap (fun c => owned ("option " ++ c.id.display) c.visibleIf) ++
    owned ("question " ++ q.id.display ++ " termination") q.terminateIf) ++
  s.jumpRules.flatMap (fun r => owned ("jump rule " ++ r.id.display) r.condition) ++
  s.pageJumpRules.flatMap (fun r => owned ("page jump rule " ++ r.id.display) r.condition)

/-- The ids of the pages from a battery's start page to its end page; none unless both exist. -/
def pagesOf (s : Survey) (b : Battery) : List Id :=
  match s.page? b.startPageId, s.page? b.endPageId with
  | some start, some finish => (s.pagesBetween start finish).map Page.id
  | _, _ => []

/-! ## Structure -/

/-- What is found about one question. -/
def questionFindings (s : Survey) (q : Question) : List Finding :=
  (if (s.page? q.pageId).isNone then
    [.error ("Question " ++ q.id.display ++ " belongs to missing page " ++ q.pageId.display)]
    else []) ++
  (if q.groupId != .null && (s.group? q.groupId).isNone then
    [.warning ("Question " ++ q.id.display ++ " references missing group " ++ q.groupId.display)]
    else []) ++
  (if q.carryFrom.isTruthy && (s.question? q.carryFrom).isNone then
    [.error ("Question " ++ q.id.display ++ " carries forward from missing question " ++
      q.carryFrom.display)]
    else [])

/-- What is found about pages and questions. -/
def structureFindings (s : Survey) : List Finding :=
  (repeatedIds (s.pages.map Page.index)).map
    (fun i => .error ("Duplicate page index " ++ i.display)) ++
  s.questions.flatMap (questionFindings s) ++
  (repeatedIds (s.questions.map Question.variableName)).map
    (fun v => .error ("Duplicate variable name " ++ v.display))

/-! ## Conditions -/

/-- The condition that an author wrote; what is not a text is an empty one. -/
def conditionOf (c : Criterion) : Except Condition.ParseError Condition :=
  match c.text with
  | .text s => Condition.parse s
  | _ => .error .emptyExpression

/-- The error about a condition that cannot be read. -/
def criterionFindings (owned : String × Criterion) : List Finding :=
  match conditionOf owned.2 with
  | .ok _ => []
  | .error e =>
    [.error ("Malformed expression " ++ owned.2.id.display ++ " on " ++ owned.1 ++ ": " ++
      e.message)]

/-- The variables that a condition names, each once; a condition that cannot be read names none. -/
def variablesOf (c : Criterion) : List String :=
  match conditionOf c with
  | .ok condition => distinct condition.references
  | .error _ => []

/-- The number of conditions that name each variable. -/
def usage (s : Survey) : Dict Nat :=
  ((criteria s).flatMap fun owned => variablesOf owned.2).foldl
    (fun d v => d.set v ((d.get? v).getD 0 + 1)) ∅

/-- The variables that conditions name and no question has, in increasing order. -/
def undefinedVariables (s : Survey) : List String :=
  (usage s).keys.filter fun v => !(Value.text v).isAmong (s.questions.map Question.variableName)

/-- What is found about conditions. -/
def conditionFindings (s : Survey) : List Finding :=
  (criteria s).flatMap criterionFindings ++
  match undefinedVariables s with
  | [] => []
  | vs => [.warning ("Undefined variable references: " ++ ", ".intercalate vs)]

/-! ## Jump rules -/

/-- The batteries that a page is inside of, that is, behind their first page. -/
def enclosing? (s : Survey) (pageId : Id) : Option Battery :=
  s.batteries.find? fun b => pageId.isAmong ((pagesOf s b).drop 1)

/-- What is found about where a rule leads. -/
def destinationFindings (s : Survey) (r : JumpRule) : List Finding :=
  if r.destination.isEnd then []
  else
    match s.destinationPage? r.destination with
    | none =>
      [.error ("Jump rule " ++ r.id.display ++ " points at missing " ++
        r.destination.kind.word ++ " " ++ r.destination.target.display)]
    | some page =>
      match enclosing? s page with
      | some b =>
        [.warning ("Jump rule " ++ r.id.display ++ " lands inside loop battery " ++ b.id.display ++
          " without passing its start page")]
      | none => []

/-- What is found about jump rules. -/
def jumpFindings (s : Survey) : List Finding :=
  s.jumpRules.flatMap (fun r =>
    if (s.question? r.source).isNone then
      [.error ("Jump rule " ++ r.id.display ++ " is attached to missing question " ++
        r.source.display)]
    else []) ++
  s.pageJumpRules.flatMap (fun r =>
    if (s.page? r.source).isNone then
      [.error ("Page jump rule " ++ r.id.display ++ " is attached to missing page " ++
        r.source.display)]
    else []) ++
  (s.jumpRules ++ s.pageJumpRules).flatMap (destinationFindings s)

/-! ## Batteries -/

/-- What is found about a battery whose items are the selections of an answer. -/
def answerSourceFindings (s : Survey) (b : Battery) (pageIds : List Id) : List Finding :=
  let about := "Loop battery " ++ b.id.display
  if !b.sourceQuestionId.isTruthy then
    [.error (about ++ " sources from answers but has no source question")]
  else
    match s.question? b.sourceQuestionId with
    | none =>
      [.error (about ++ " sources from missing question " ++ b.sourceQuestionId.display)]
    | some q =>
      (if q.isMultiSelect then []
        else [.error (about ++ " source question " ++ q.id.display ++ " is not multi-select")]) ++
      (if q.pageId.isAmong pageIds then
        [.error (about ++ " source question " ++ q.id.display ++ " is inside the battery")]
        else [])

/-- What is found about a battery whose items are the rows of a dataset. -/
def datasetFindings (b : Battery) : List Finding :=
  (match repeatedIds (b.rows.map DatasetRow.key) with
    | [] => []
    | keys => [.error ("Loop battery " ++ b.id.display ++ " has duplicate dataset keys: " ++
        ", ".intercalate (sortedTexts (keys.map Value.display)))]) ++
  (if b.rows.any DatasetRow.isActive then []
    else [.warning ("Loop battery " ++ b.id.display ++
      " has no active dataset items and will be skipped")])

/-- What is found about the source and limit of a battery with the given pages. -/
def sourceFindings (s : Survey) (b : Battery) (pageIds : List Id) : List Finding :=
  (if b.maxItems.less (.int 1) then
    [.warning ("Loop battery " ++ b.id.display ++ " has max_items " ++ b.maxItems.display ++
      "; no cap is applied")]
    else []) ++
  match b.source with
  | .answer => answerSourceFindings s b pageIds
  | .dataset => datasetFindings b

/-- What is found about batteries; `claimed` holds the batteries before with their pages. -/
def batteryFindings (s : Survey) :
    List (Id × List Id) → List Battery → List Finding
  | _, [] => []
  | claimed, b :: r =>
    match s.page? b.startPageId, s.page? b.endPageId with
    | some start, some finish =>
      if start.isBefore finish then
        let ids := pagesOf s b
        match ids.findSome? fun id => (claimed.find? fun c => id.isAmong c.2).map (·.1, id) with
        | some (other, page) =>
          .error ("Loop batteries " ++ other.display ++ " and " ++ b.id.display ++
            " overlap on page " ++ page.display) ::
            (sourceFindings s b ids ++ batteryFindings s claimed r)
        | none => sourceFindings s b ids ++ batteryFindings s (claimed ++ [(b.id, ids)]) r
      else
        .error ("Loop battery " ++ b.id.display ++ " start page " ++ start.id.display ++
          " must come before end page " ++ finish.id.display) :: batteryFindings s claimed r
    | _, _ =>
      .error ("Loop battery " ++ b.id.display ++ " references a missing page") ::
        batteryFindings s claimed r

/-! ## What can be audited -/

/-- What an author wrote as a condition is a text, or nothing. -/
def isReadable (c : Criterion) : Bool := c.text == .null || c.text.isText

/-- Fails unless the pages and questions of a survey can be told apart. -/
def demandDistinguishable (s : Survey) : Except Fault Unit :=
  demandKeys <| s.pages.flatMap (fun p => [p.id, p.index]) ++
    s.questions.flatMap fun q => [q.variableName, q.pageId]

/-- Fails unless the conditions of a survey are texts. -/
def demandReadable (s : Survey) : Except Fault Unit :=
  if (criteria s).all fun owned => isReadable owned.2 then .ok () else .error .conditionNotText

/-- Fails unless a dataset's keys can be told apart, and those that repeat be listed. -/
def demandDataset (b : Battery) : Except Fault Unit := do
  demandKeys (b.rows.map DatasetRow.key)
  if (repeatedIds (b.rows.map DatasetRow.key)).all Value.isText then .ok () else .error .wrongKind

/-- Fails unless a battery with a range can be audited. -/
def demandBattery (s : Survey) (b : Battery) : Except Fault Unit :=
  match s.page? b.startPageId, s.page? b.endPageId with
  | some start, some finish => do
    demandComparable (start.index :: s.pages.map Page.index)
    if start.isBefore finish then
      if b.maxItems != .null && !b.maxItems.isNumeric then .error .wrongKind
      else if b.source == .dataset then demandDataset b
  | _, _ => .ok ()

/-- Fails unless a survey can be audited. -/
def demandAuditable (s : Survey) : Except Fault Unit := do
  demandDistinguishable s
  demandReadable s
  demandKeys (s.pageJumpRules.map JumpRule.source)
  s.batteries.forM (demandBattery s)

/-! ## The report -/

/-- All that is found. -/
def findings (s : Survey) : List Finding :=
  structureFindings s ++ conditionFindings s ++ jumpFindings s ++ batteryFindings s [] s.batteries

/-- The message of an error. -/
def Finding.error? : Finding → Option String
  | .error m => some m
  | .warning _ => none

/-- The message of a warning. -/
def Finding.warning? : Finding → Option String
  | .error _ => none
  | .warning m => some m

end Audit

/-- The audit of a survey. -/
def Survey.audit (s : Survey) : Report where
  surveyId := s.id
  pages := s.pages.length
  questions := s.questions.length
  expressions := (Audit.criteria s).length
  jumpRules := s.jumpRules.length + s.pageJumpRules.length
  batteries := s.batteries.length
  usage := Audit.usage s
  undefined := Audit.undefinedVariables s
  errors := Audit.distinct ((Audit.findings s).filterMap Audit.Finding.error?)
  warnings := Audit.distinct ((Audit.findings s).filterMap Audit.Finding.warning?)

/-- The audit of a survey that can be audited. -/
def Survey.inspect (s : Survey) : Except Fault Report := do
  Audit.demandAuditable s
  .ok s.audit

/-- The audit of a survey that has no errors; otherwise the refusal. -/
def Survey.validate (s : Survey) : Except String Report :=
  let report := s.audit
  if report.isValid then .ok report else .error report.refusal

end Questionnaire
