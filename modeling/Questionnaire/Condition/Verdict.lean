import Questionnaire.Condition.Parser
import Questionnaire.Survey.Lookup
import Questionnaire.Value.Text

/-!
# The verdict on a condition

A condition is judged against what is known of one respondent (`Context`). A variable means the
answer to the first question with that variable; if there is no such question, it is looked up
among the answers and then among the embedded data.

`Context.judge` tells a verdict from a failure: the text may not be a condition, a variable may be
unknown or belong to a question under whose id no answer can be kept, an answer may not be
comparable, and an integer may be too large for a binary number.
`Context.judgeAuthored` also takes what an author wrote that is not a text.
-/

namespace Questionnaire

/-- What a condition may read: the answers under question ids, the embedded data, and the questions
whose variables are known. -/
structure Context where
  responses : Register Value
  embedded : Register Value
  questions : List Question

/-- Why a condition has no verdict. -/
inductive Condition.Failure
  | malformed (e : Condition.ParseError)
  | unknownReference (name : Id)
  | manyValues (answer : Value)
  | notNumeric (answer : Value)
  /-- An integer is too large for a binary number. -/
  | tooLarge
  /-- What stands in place of the condition is not a text. -/
  | notText
  /-- The id of a question or a name is a list or a mapping. -/
  | unusableId

/-- The wording of a failure. -/
def Condition.Failure.message : Condition.Failure → String
  | .malformed e => e.message
  | .unknownReference name => "Unknown question reference: " ++ name.display
  | .manyValues answer => "Cannot compare a multi-value answer numerically: " ++ answer.quoted
  | .notNumeric answer => "Answer is not numeric: " ++ answer.quoted
  | .tooLarge => "int too large to convert to float"
  | .notText => "the condition is not a text"
  | .unusableId => "the id is no key"

/-- A failure that the author of the condition could mend. -/
def Condition.Failure.isAuthoring : Condition.Failure → Bool
  | .tooLarge | .notText | .unusableId => false
  | _ => true

namespace Context

open Condition

/-- The question that a variable names. -/
def question? (ctx : Context) (name : Id) : Option Question :=
  ctx.questions.find? fun q => q.variableName.equal name

/-- The value that a name without a question means, if it is known. -/
def loose? (ctx : Context) (name : Id) : Option Value :=
  (ctx.responses.get? name).or (ctx.embedded.get? name)

/-- The value that a variable means: a question without an answer has nothing for one. -/
def resolve (ctx : Context) (name : Id) : Except Failure Value :=
  match ctx.question? name with
  | some q =>
    if q.id.isCompound then .error .unusableId
    else .ok ((ctx.responses.get? q.id).getD .null)
  | none =>
    if name.isCompound then .error .unusableId
    else
      match ctx.loose? name with
      | some v => .ok v
      | none => .error (.unknownReference name)

end Context

namespace Condition

/-! ## Values as a condition sees them -/

/-- A list of one element stands for that element. -/
def scalar : Value → Value
  | .list [v] => v
  | v => v

/-- No answer: nothing, a blank text, or an empty list or mapping. -/
def isEmptyAnswer : Value → Bool
  | .null => true
  | .text s => Text.isAllBlank s
  | .list items => items.isEmpty
  | .map entries => entries.isEmpty
  | _ => false

/-- The value of a literal. -/
def Literal.value : Literal → Value
  | .text s => .text s
  | .int i => .int i
  | .float x => .float x

/-- A value read as a number; none for what cannot be read as one. -/
def asNumber : Value → Except Failure (Option Binary64)
  | .bool b => .ok (some (.ofBool b))
  | .int i =>
    match Binary64.ofInt? i with
    | some x => .ok (some x)
    | none => .error .tooLarge
  | .float x => .ok (some x)
  | .text s => .ok (Binary64.ofText? s)
  | _ => .ok none

/-- The number that an answer is. -/
def numberOf (answer : Value) : Except Failure Binary64 :=
  match answer with
  | .list _ => .error (.manyValues answer)
  | _ => do
    match ← asNumber answer with
    | some x => .ok x
    | none => .error (.notNumeric answer)

/-- The text by which selected values are compared: a number that is an integer is written without
a point. -/
def normalForm : Value → Except Failure String
  | .int i =>
    match Binary64.ofInt? i with
    | some _ => .ok (toString i)
    | none => .error .tooLarge
  | .float x =>
    match x.toInt? with
    | some i => .ok (toString i)
    | none => .ok (Value.display (.float x))
  | v => .ok v.display

/-- An integer or a number with a fraction. -/
def isNumber : Value → Bool
  | .int _ | .float _ => true
  | _ => false

/-- Whether an answer equals a literal: as values, as numbers if one of them is a number, and else
as texts. Nothing and lists equal no literal. -/
def valuesEqual (answer expected : Value) : Except Failure Bool :=
  match answer with
  | .null | .list _ => .ok false
  | _ =>
    if answer.equal expected then .ok true
    else if isNumber answer || isNumber expected then do
      match ← asNumber answer with
      | none => .ok false
      | some x =>
        match ← asNumber expected with
        | none => .ok false
        | some y => .ok (x.eq y)
    else .ok (answer.display == expected.display)

/-- Whether `part` occurs in `cs`. -/
def occursIn (part : List Char) : List Char → Bool
  | [] => part.isEmpty
  | c :: r => part.isPrefixOf (c :: r) || occursIn part r

/-- The verdict on a comparison of an answer with a literal. -/
def compareAnswer (test : Comparison) (answer : Value) (literal : Literal) :
    Except Failure Bool :=
  let answer := scalar answer
  let expected := Literal.value literal
  match test with
  | .equals => valuesEqual answer expected
  | .notEquals => (valuesEqual answer expected).map (!·)
  | .contains =>
    .ok (!isEmptyAnswer answer && answer.selections.any fun v =>
      occursIn expected.display.toList v.display.toList)
  | .startsWith =>
    .ok (!isEmptyAnswer answer && answer.selections.any fun v =>
      expected.display.toList.isPrefixOf v.display.toList)
  | .greaterThan => if isEmptyAnswer answer then .ok false else do
    let x ← numberOf answer
    let y ← numberOf expected
    .ok (y.lt x)
  | .lessThan => if isEmptyAnswer answer then .ok false else do
    let x ← numberOf answer
    let y ← numberOf expected
    .ok (x.lt y)

/-- The verdict on a test of the selected values against candidates. -/
def testSelection (test : SelectionTest) (answer : Value) (candidates : List Literal) :
    Except Failure Bool := do
  let selected ← answer.selections.mapM normalForm
  let wanted ← candidates.mapM fun l => normalForm (Literal.value l)
  .ok <|
    match test with
    | .any => wanted.any selected.contains
    | .all => !selected.isEmpty && wanted.all selected.contains
    | .none => !wanted.any selected.contains

/-- The verdict on a test for the presence of an answer. -/
def testEmptiness (test : EmptinessTest) (answer : Value) : Bool :=
  match test with
  | .isEmpty => isEmptyAnswer answer
  | .notEmpty => !isEmptyAnswer answer

/-! ## Judging -/

mutual

/-- The verdict on a condition. The parts of a joined condition are judged in order, only as far as
needed. -/
def judge (ctx : Context) : Condition → Except Failure Bool
  | .comparison test v literal => do compareAnswer test (← ctx.resolve (.text v)) literal
  | .selection test v candidates => do testSelection test (← ctx.resolve (.text v)) candidates
  | .emptiness test v => do .ok (testEmptiness test (← ctx.resolve (.text v)))
  | .joined .and parts => judgeAll ctx parts
  | .joined .or parts => judgeAny ctx parts
  | .negated c => do .ok (!(← judge ctx c))

/-- Whether all conditions hold; the first that does not decides. -/
def judgeAll (ctx : Context) : List Condition → Except Failure Bool
  | [] => .ok true
  | c :: r => do if ← judge ctx c then judgeAll ctx r else .ok false

/-- Whether some condition holds; the first that does decides. -/
def judgeAny (ctx : Context) : List Condition → Except Failure Bool
  | [] => .ok false
  | c :: r => do if ← judge ctx c then .ok true else judgeAny ctx r

end

end Condition

namespace Context

open Condition

/-- The verdict on the text of a condition, or why there is none. -/
def judge (ctx : Context) (text : String) : Except Failure Bool :=
  match parse text with
  | .ok c => c.judge ctx
  | .error e => .error (.malformed e)

/-- The verdict on what an author wrote as a condition. What is missing or counts as nothing is an
empty condition. -/
def judgeAuthored (ctx : Context) : Value → Except Failure Bool
  | .text s => ctx.judge s
  | v => if v.isTruthy then .error .notText else ctx.judge ""

end Context

end Questionnaire
