import Questionnaire.Register

/-!
# Survey definitions

What an author writes: pages in the order of their indexes, groups of questions on them, questions
with their choices, rules that jump, and batteries, which are runs of pages repeated once per item.
A definition is plain data; it knows nothing of respondents and is never changed while one answers.
Every member is kept as it was authored: an index may be any number, a label may be missing, and a
condition is a text that perhaps cannot be read. A mistake in one place must not make the rest of
the survey unusable, so it matters only where that member is used.
-/

namespace Questionnaire

/-- An authored condition: its text under an id, with an optional note. -/
structure Criterion where
  id : Id
  text : Value
  note : Value
  deriving DecidableEq, Inhabited

/-- The kinds of questions. -/
inductive QuestionKind
  | singleChoice
  | multipleChoice
  | text
  | number
  | rating
  | date
  deriving DecidableEq, Repr, Inhabited

/-- How questions, groups or choices are put in order for display. -/
inductive OrderMode
  /-- As authored. -/
  | sequential
  /-- Shuffled. -/
  | random
  /-- Shuffled within and between the parts that share a group key; what has no key comes last. -/
  | groupRandom
  /-- A random order in which a greater weight tends to come first. -/
  | weighted
  deriving DecidableEq, Repr, Inhabited

/-- Where a battery takes its items from. -/
inductive LoopSource
  | answer
  | dataset
  deriving DecidableEq, Repr, Inhabited

/-- What a jump rule points at. -/
inductive DestinationKind
  | question
  | page
  | finish
  deriving DecidableEq, Repr, Inhabited

/-- Which choices of an earlier question are carried forward. -/
inductive CarryFilter
  | selected
  | unselected
  | all
  deriving DecidableEq, Repr, Inhabited

/-- A page. Pages are shown in the order of their indexes. -/
structure Page where
  id : Id
  index : Value
  title : Value
  visibleIf : Option Criterion
  questionOrder : OrderMode
  groupOrder : OrderMode
  deriving DecidableEq, Inhabited

/-- A block of questions shown together on one page. -/
structure Group where
  id : Id
  pageId : Id
  index : Value
  title : Value
  visibleIf : Option Criterion
  questionOrder : OrderMode
  deriving DecidableEq, Inhabited

/-- A part of a question's choices; when it is hidden, so are its choices. -/
structure ChoiceGroup where
  key : Id
  label : Value
  visibleIf : Option Criterion
  deriving DecidableEq, Inhabited

/-- One choice of a question. The weight counts in weighted order only. -/
structure Choice where
  id : Id
  value : Value
  label : Value
  index : Value
  visibleIf : Option Criterion
  groupKey : Value
  weight : Value
  deriving DecidableEq, Inhabited

/-- A question. Answers are kept under its id, conditions name it by its variable. A question may
reuse the choices of an earlier one, and may end the survey when its answer meets a condition. -/
structure Question where
  id : Id
  pageId : Id
  variableName : Id
  kind : QuestionKind
  text : Value
  index : Value
  groupId : Id
  choiceOrder : OrderMode
  visibleIf : Option Criterion
  choices : List Choice
  choiceGroups : List ChoiceGroup
  carryFrom : Id
  carryFilter : CarryFilter
  terminateIf : Option Criterion
  deriving DecidableEq, Inhabited

/-- Where a jump leads: to a question, to a page or to the end. -/
structure Destination where
  kind : DestinationKind
  target : Id
  deriving DecidableEq, Inhabited

/-- A jump rule of a question or of a page; the source is the id of either. A lower priority is
tried first. -/
structure JumpRule where
  id : Id
  source : Id
  destination : Destination
  condition : Option Criterion
  priority : Value
  deriving DecidableEq, Inhabited

/-- One row of a battery's dataset. Only active rows are planned, in the order of their sort
indexes. -/
structure DatasetRow where
  key : Id
  attributes : Register Value
  active : Value
  sortIndex : Value
  deriving DecidableEq, Inhabited

/-- A run of pages repeated once per item. The items are the selections of a question's answer or
the rows of a dataset. -/
structure Battery where
  id : Id
  name : Value
  startPageId : Id
  endPageId : Id
  source : LoopSource
  sourceQuestionId : Id
  maxItems : Value
  randomize : Value
  sampleWithoutReplacement : Value
  rows : List DatasetRow
  deriving DecidableEq, Inhabited

/-- A survey. -/
structure Survey where
  id : Id
  name : Value
  pages : List Page
  groups : List Group
  questions : List Question
  jumpRules : List JumpRule
  pageJumpRules : List JumpRule
  batteries : List Battery
  metadata : Value
  deriving DecidableEq, Inhabited

/-! ## Settings of parts -/

/-- Whether a row is planned. -/
def DatasetRow.isActive (r : DatasetRow) : Bool := r.active.isTruthy

/-- Whether a battery's items are shuffled. -/
def Battery.isRandomized (b : Battery) : Bool := b.randomize.isTruthy

/-! ## Codes -/

/-- The code of a kind of question. -/
def QuestionKind.code : QuestionKind → String
  | .singleChoice => "SINGLE_CHOICE"
  | .multipleChoice => "MULTIPLE_CHOICE"
  | .text => "TEXT"
  | .number => "NUMBER"
  | .rating => "RATING"
  | .date => "DATE"

/-- The code of an order mode. -/
def OrderMode.code : OrderMode → String
  | .sequential => "SEQUENTIAL"
  | .random => "RANDOM"
  | .groupRandom => "GROUP_RANDOM"
  | .weighted => "WEIGHTED"

/-- The code of a source of items. -/
def LoopSource.code : LoopSource → String
  | .answer => "ANSWER"
  | .dataset => "DATASET"

/-- The code of a kind of destination. -/
def DestinationKind.code : DestinationKind → String
  | .question => "QUESTION"
  | .page => "PAGE"
  | .finish => "END"

/-- The word for a kind of destination in messages. -/
def DestinationKind.word : DestinationKind → String
  | .question => "question"
  | .page => "page"
  | .finish => "end"

/-- The code of a filter. -/
def CarryFilter.code : CarryFilter → String
  | .selected => "SELECTED"
  | .unselected => "UNSELECTED"
  | .all => "ALL"

/-- The kind of question with a code. -/
def QuestionKind.ofCode? (code : String) : Option QuestionKind :=
  [.singleChoice, .multipleChoice, .text, .number, .rating, .date].find? fun k => k.code == code

/-- The order mode with a code. -/
def OrderMode.ofCode? (code : String) : Option OrderMode :=
  [.sequential, .random, .groupRandom, .weighted].find? fun m => m.code == code

/-- The source of items with a code. -/
def LoopSource.ofCode? (code : String) : Option LoopSource :=
  [.answer, .dataset].find? fun s => s.code == code

/-- The kind of destination with a code. -/
def DestinationKind.ofCode? (code : String) : Option DestinationKind :=
  [.question, .page, .finish].find? fun k => k.code == code

/-- The filter with a code. -/
def CarryFilter.ofCode? (code : String) : Option CarryFilter :=
  [.selected, .unselected, .all].find? fun f => f.code == code

end Questionnaire
