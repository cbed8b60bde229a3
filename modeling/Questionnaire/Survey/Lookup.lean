import Questionnaire.Sorted
import Questionnaire.Survey.Basic

/-!
# Finding the parts of a survey

Every look-up by id finds the first part whose id equals it, in authored order. Lists of parts
are sorted by index; parts with equal indexes keep their authored order.
-/

namespace Questionnaire

namespace Question

/-- A question whose answer is a list of selected values. -/
def isMultiSelect (q : Question) : Bool := q.kind == .multipleChoice

/-- The choice with a value; numbers are the same value whatever their kind. -/
def choiceWithValue? (q : Question) (v : Value) : Option Choice :=
  q.choices.find? fun c => c.value.equal v

/-- The choice group with a key. -/
def choiceGroup? (q : Question) (key : Id) : Option ChoiceGroup :=
  q.choiceGroups.find? fun g => g.key.equal key

end Question

/-- Whether a page comes before another one by index. A page that cannot be compared comes before
every other. -/
def Page.isBefore (first last : Page) : Bool := !last.index.atMost first.index

namespace Destination

/-- The destination at the end of the survey. -/
def atEnd : Destination := ⟨.finish, .null⟩

/-- Whether the destination is the end of the survey. -/
def isEnd (d : Destination) : Bool := d.kind == .finish

end Destination

namespace Survey

variable (s : Survey)

/-- The page with an id. -/
def page? (id : Id) : Option Page := s.pages.find? fun p => p.id.equal id

/-- The question with an id. -/
def question? (id : Id) : Option Question := s.questions.find? fun q => q.id.equal id

/-- The question with a variable name. -/
def questionByVariable? (name : Id) : Option Question :=
  s.questions.find? fun q => q.variableName.equal name

/-- The group with an id. -/
def group? (id : Id) : Option Group := s.groups.find? fun g => g.id.equal id

/-- The battery with an id. -/
def battery? (id : Id) : Option Battery := s.batteries.find? fun b => b.id.equal id

/-- The pages in the order in which they are shown. -/
def pagesInOrder : List Page := sortedBy Page.index s.pages

/-- The pages from one page to another by index, both ends included, in order. -/
def pagesBetween (first last : Page) : List Page :=
  s.pagesInOrder.filter fun p => first.index.atMost p.index && p.index.atMost last.index

/-- The questions of a page, in order. -/
def questionsOnPage (pageId : Id) : List Question :=
  sortedBy Question.index (s.questions.filter fun q => q.pageId.equal pageId)

/-- The groups of a page, in order. -/
def groupsOnPage (pageId : Id) : List Group :=
  sortedBy Group.index (s.groups.filter fun g => g.pageId.equal pageId)

/-- The jump rules of a question, as authored. -/
def jumpRulesFor (questionId : Id) : List JumpRule :=
  s.jumpRules.filter fun r => r.source.equal questionId

/-- The jump rules of a page, as authored. -/
def pageJumpRulesFor (pageId : Id) : List JumpRule :=
  s.pageJumpRules.filter fun r => r.source.equal pageId

/-- The batteries whose items are the selections of a question's answer. -/
def batteriesSourcedFrom (questionId : Id) : List Battery :=
  s.batteries.filter fun b => b.source == .answer && b.sourceQuestionId.equal questionId

/-- The page that a destination leads to: none for the end of the survey, for a target that does
not exist and for a page that is named by nothing. -/
def destinationPage? (d : Destination) : Option Id :=
  match d.kind with
  | .page => (s.page? d.target).bind fun p => p.id.given?
  | .question =>
    (s.question? d.target).bind fun q => (s.page? q.pageId).bind fun _ => q.pageId.given?
  | .finish => none

end Survey

end Questionnaire
