import Questionnaire.Condition.Pieces
import Questionnaire.Number.Reading

/-!
# Reading conditions

A text, less surrounding blanks and wrapping negations, is split at ` && `; if there is none, at
` || `; if there is none either, it is a predicate. The pieces are read in the same way. As they have
no sign of their connective outside strings left, three levels are all there are: composition is
flat.

A predicate is `name(reference, literal)`, `name(reference, [literal, …])` or `name(reference)`,
where a reference is a quoted variable or `answer(…)` around one.
-/

namespace Questionnaire.Condition

open Questionnaire.Text

/-! ## Predicates -/

/-- The text of a string token: its quotes are dropped, and so is a backslash before any character
but a line feed. -/
def unescape : List Char → List Char
  | [] => []
  | c :: r =>
    if c == backslash then
      match r with
      | [] => [c]
      | d :: r' => if d == '\n' then c :: d :: unescape r' else d :: unescape r'
    else c :: unescape r

/-- The text that a string token stands for. -/
def unquote (cs : List Char) : String := String.ofList (unescape (cs.drop 1).dropLast)

/-- Takes a mark off the tokens. -/
def expectMark (mark : Char) : List Token → Except ParseError (List Token)
  | [] => .error (.expectedMark (String.singleton mark) none)
  | t :: r =>
    if t.chars == [mark] then .ok r
    else .error (.expectedMark (String.singleton mark) (some t.text))

/-- Takes a reference to a question off the tokens. -/
def takeReference : List Token → Except ParseError (String × List Token)
  | [] => .error .unexpectedEnd
  | t :: r =>
    if t.kind == .string then .ok (unquote t.chars, r)
    else if t.kind == .name && t.text == "answer" then do
      let r ← expectMark '(' r
      match r with
      | [] => .error .answerNeedsName
      | s :: r =>
        if s.kind == .string then do
          let r ← expectMark ')' r
          .ok (unquote s.chars, r)
        else .error .answerNeedsName
    else .error (.expectedReference t.text)

/-- The literal of a number token: an integer if the token has no point and its value is one. -/
def numberLiteral (cs : List Char) : Literal :=
  let x := (Binary64.ofChars? cs).getD Binary64.notANumber
  if cs.contains '.' then .float x
  else
    match x.toInt? with
    | some i => .int i
    | none => .float x

/-- Takes a literal off the tokens. -/
def takeLiteral : List Token → Except ParseError (Literal × List Token)
  | [] => .error .unexpectedEnd
  | t :: r =>
    match t.kind with
    | .string => .ok (.text (unquote t.chars), r)
    | .number => .ok (numberLiteral t.chars, r)
    | _ => .error (.expectedLiteral t.text)

/-- Takes the literals of a list and its closing bracket off the tokens, at least one literal;
`fuel` bounds their number. -/
def takeLiteralsWithin : Nat → List Token → Except ParseError (List Literal × List Token)
  | 0, _ => .error .unclosedList
  | fuel + 1, ts => do
    let (literal, r) ← takeLiteral ts
    match r with
    | [] => .error .unclosedList
    | t :: r' =>
      if t.chars == [']'] then .ok ([literal], r')
      else do
        let r ← expectMark ',' (t :: r')
        let (literals, r) ← takeLiteralsWithin fuel r
        .ok (literal :: literals, r)

/-- Takes a bracketed list of literals off the tokens. -/
def takeLiteralList (ts : List Token) : Except ParseError (List Literal × List Token) := do
  let r ← expectMark '[' ts
  match r with
  | t :: r' =>
    if t.chars == [']'] then .ok ([], r') else takeLiteralsWithin (r'.length + 1) r
  | [] => takeLiteralsWithin 1 r

/-- The literal of a comparison of numbers: the text of a number counts as that number. -/
def numericLiteral (test : Comparison) : Literal → Except ParseError Literal
  | .text s =>
    match Binary64.ofText? s with
    | some x => .ok (.float x)
    | none => .error (.expectedNumber test.name s)
  | l => .ok l

/-- The arguments of a predicate after its opening parenthesis, and the tokens after them. -/
def takeArguments (name : PredicateName) (ts : List Token) :
    Except ParseError (Condition × List Token) :=
  match name with
  | .comparison test => do
    let (reference, r) ← takeReference ts
    let r ← expectMark ',' r
    let (literal, r) ← takeLiteral r
    let literal ← if test.isNumeric then numericLiteral test literal else .ok literal
    .ok (.comparison test reference literal, r)
  | .selection test => do
    let (reference, r) ← takeReference ts
    let r ← expectMark ',' r
    let (candidates, r) ← takeLiteralList r
    .ok (.selection test reference candidates, r)
  | .emptiness test => do
    let (reference, r) ← takeReference ts
    .ok (.emptiness test reference, r)

/-- The predicate that a sequence of tokens is. -/
def ofTokens : List Token → Except ParseError Condition
  | [] => .error .unexpectedEnd
  | t :: r =>
    if t.kind == .name then do
      let r ← expectMark '(' r
      match PredicateName.ofName? t.text with
      | none => .error (.unsupported t.text)
      | some name => do
        let (condition, r) ← takeArguments name r
        let r ← expectMark ')' r
        if r.isEmpty then .ok condition else .error (.unexpectedRest (r.map Token.text))
    else .error (.expectedName t.text)

/-- Reads a predicate. -/
def predicate (cs : List Char) : Except ParseError Condition := do
  ofTokens (← tokens cs)

/-! ## Composition -/

/-- Reads a text by what is inside its wrapping negations. -/
def negatable (inner : List Char → Except ParseError Condition) (cs : List Char) :
    Except ParseError Condition := do
  let (odd, body) := unwrap (trim cs)
  if body.isEmpty then .error .emptyOperand
  else
    let condition ← inner body
    .ok (if odd then .negated condition else condition)

/-- Reads a text by its pieces: joined if there are several. -/
def joinedBy (connective : Connective) (part whole : List Char → Except ParseError Condition)
    (cs : List Char) : Except ParseError Condition :=
  match pieces connective cs with
  | first :: second :: r => do
    let parts ← (first :: second :: r).mapM part
    .ok (.joined connective parts)
  | _ => whole cs

/-- Reads a text that no negation wraps: by its pieces between ` && `, or else by those between
` || `, or else as a predicate. -/
def composed (part : List Char → Except ParseError Condition) :
    List Char → Except ParseError Condition :=
  joinedBy .and part (joinedBy .or part predicate)

/-- Reads a text whose pieces are read in the same way; `fuel` bounds how often pieces are taken
apart. -/
def compositeWithin : Nat → List Char → Except ParseError Condition
  | 0, _ => .error .emptyOperand
  | fuel + 1, cs => negatable (composed (compositeWithin fuel)) cs

/-- Reads a text whose pieces are read in the same way. A text without any character is refused, and
the pieces of any other one are shorter. -/
def composite (cs : List Char) : Except ParseError Condition := compositeWithin cs.length cs

/-- Reads a condition. -/
def parse (s : String) : Except ParseError Condition :=
  if isAllBlank s then .error .emptyExpression else composite s.toList

end Questionnaire.Condition
