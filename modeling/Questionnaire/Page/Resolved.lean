import Questionnaire.Condition.Verdict
import Questionnaire.Page.Wording

/-!
# Resolved wording

What the tokens of a text stand for. Tokens for the current iteration are replaced first, tokens for
answers next, and tokens for embedded data last, each in one pass over what the pass before left.
-/

namespace Questionnaire.Wording

/-! ## The current iteration -/

/-- The word for a truth value in a text. -/
def truthWord (b : Bool) : String := if b then "true" else "false"

/-- The names that every iteration has, with what they stand for. -/
def builtins (i : Iteration) : Except Fault (List (String × Value)) := do
  .ok [("key", i.item.key), ("label", i.item.label), ("index", .text (← i.number).display),
    ("total", .text i.total.display), ("isFirst", .text (truthWord i.isFirst)),
    ("isLast", .text (truthWord (← i.isLast))),
    ("progress", .text (toString (← i.roundedPercent)))]

/-- All names of an iteration with what they stand for; an attribute does not hide a name that every
iteration has. -/
def loopValues (i : Iteration) : Except Fault (Register Value) := do
  .ok ((← builtins i).foldl (fun r e => r.set (.text e.1) e.2)
    (i.item.attributes.map fun v => .text v.display))

/-- The text that a value is put into a text as; nothing is the empty text. -/
def insertedText : Value → Except Fault String
  | .text s => .ok s
  | .null => .ok ""
  | _ => .error .wrongKind

/-- The opening of a name that means an attribute only. -/
def attributesOpening : List Char := "attributes.".toList

/-- The text of a name in an iteration with the given values. -/
def loopValue? (i : Iteration) (values : Register Value) (name : String) :
    Except Fault (Option String) :=
  match after? attributesOpening name.toList with
  | some own => .ok ((i.item.attributes.get? (.text (String.ofList own))).map Value.display)
  | none =>
    match values.get? (.text name) with
    | some v => (insertedText v).map some
    | none => .ok none

/-- A piece with its token replaced by its value, if it has one. -/
def resolvePiece {α : Type} (value : α → Except Fault (Option String)) :
    Piece α → Except Fault (List Char)
  | .char c => .ok [c]
  | .token written name => do
    match ← value name with
    | some v => .ok v.toList
    | none => .ok written

/-- A text of pieces with each token replaced by its value, if it has one. -/
def resolvePieces {α : Type} (value : α → Except Fault (Option String)) (ps : List (Piece α)) :
    Except Fault String := do
  .ok (String.ofList (← ps.mapM (resolvePiece value)).flatten)

/-- The text with its tokens for the current iteration replaced; without an iteration they stay. -/
def resolveLoop (text : String) (iteration : Option Iteration) : Except Fault String :=
  match iteration with
  | none => .ok text
  | some i =>
    if text == "" then .ok ""
    else do resolvePieces (loopValue? i (← loopValues i)) (pieces loopToken? text.toList)

/-- Whether a text has a token for the current iteration. -/
def hasLoopTokens (text : String) : Bool := (pieces loopToken? text.toList).any Piece.isToken

/-! ## Answers and embedded data -/

/-- The text of a selected value as the respondent read it: the label of the question's choice with
that value, if there is one. -/
def displayValue (q : Question) (v : Value) : Except Fault String :=
  match (q.choiceWithValue? v).map Choice.label with
  | none => .ok v.display
  | some (.text label) => .ok label
  | some _ => .error .wrongKind

/-- The texts of the selected values as the respondent read them. -/
def displayValues (q : Question) (answer : Value) : Except Fault (List String) :=
  match answer with
  | .list items => items.mapM (displayValue q)
  | v => [v].mapM (displayValue q)

/-- An answer that is piped as an empty text. -/
def isUnanswered : Value → Bool
  | .null => true
  | .text s => s == ""
  | .list items => items.isEmpty
  | _ => false

/-- The text of an answer as a number: without a point if it is an integer, and empty if it is no
number. -/
def numericText (answer : Value) : Except Fault String :=
  match Condition.asNumber answer with
  | .error _ => .error .numberTooLarge
  | .ok none => .ok ""
  | .ok (some x) =>
    .ok <|
      match x.toInt? with
      | some i => toString i
      | none => x.text Binary64.plainLayout

/-- The fields of an answer. -/
def fields : List String := ["response", "text", "choices", "value", "numeric"]

/-- The text of a field of an answer; none for a field that does not exist and for the choices of a
question without choices. -/
def pipeField (q : Question) (answer : Value) (field : String) :
    Except Fault (Option String) :=
  if !fields.contains field then .ok none
  else if isUnanswered answer then .ok (some "")
  else if field == "value" then
    match answer with
    | .list items => .ok (some (", ".intercalate (items.map Value.display)))
    | v => .ok (some v.display)
  else if field == "numeric" then (numericText answer).map some
  else if field == "choices" && q.choices.isEmpty then .ok none
  else (displayValues q answer).map fun texts => some (", ".intercalate texts)

/-- The text that a token for an answer stands for. The last question with the variable counts. -/
def pipeValue (questions : List Question) (responses : Register Value)
    (token : String × String) : Except Fault (Option String) :=
  match questions.reverse.find? fun q => q.variableName.agrees (.text token.1) with
  | none => .ok none
  | some q => do
    demandKeys [q.id]
    pipeField q ((responses.get? q.id).getD .null) token.2

/-- The text with its tokens for answers replaced. Where there is a text, the questions must be told
apart by their variables. -/
def resolveAnswers (text : String) (questions : List Question) (responses : Register Value) :
    Except Fault String :=
  if text == "" then .ok ""
  else do
    demandKeys (questions.map Question.variableName)
    resolvePieces (pipeValue questions responses) (pieces pipeToken? text.toList)

/-- The text with its tokens for embedded data replaced. -/
def resolveEmbedded (text : String) (embedded : Register Value) : String :=
  String.ofList (substitute (fun key => (embedded.get? (.text key)).map Value.display)
    (pieces embeddedToken? text.toList))

/-- The text with its tokens for answers replaced, and then its tokens for embedded data if there
are any data. -/
def resolvePiping (text : String) (questions : List Question) (responses : Register Value)
    (embedded : Option (Register Value)) : Except Fault String := do
  let piped ← resolveAnswers text questions responses
  match embedded with
  | none => .ok piped
  | some data => .ok (resolveEmbedded piped data)

/-- The text with all its tokens replaced. -/
def resolve (text : String) (iteration : Option Iteration) (questions : List Question)
    (responses : Register Value) (embedded : Option (Register Value)) : Except Fault String := do
  resolvePiping (← resolveLoop text iteration) questions responses embedded

/-- The text that an author wrote; what is missing or counts as nothing is the empty text. -/
def authoredText : Value → Except Fault String
  | .text s => .ok s
  | v => if v.isTruthy then .error .wrongKind else .ok ""

/-- What an author wrote as a text, with all its tokens replaced. -/
def resolveAuthored (text : Value) (iteration : Option Iteration) (questions : List Question)
    (responses : Register Value) (embedded : Option (Register Value)) : Except Fault String := do
  resolve (← authoredText text) iteration questions responses embedded

end Questionnaire.Wording
