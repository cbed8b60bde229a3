import Questionnaire.Condition.Basic
import Questionnaire.Text.Blank
import Questionnaire.Text.DecimalDigit

/-!
# Tokens of a predicate

A predicate's text is a sequence of tokens with blanks between them: quoted strings, numbers,
names, and the marks `( ) [ ] ,`. A token keeps its text as written, so the tokens of a text and
its blanks outside strings are all of it.

A string stands between two equal quotes; in it a backslash takes the character after it, which
must not be a line feed. A number is an optional minus and decimal digits of any script with at
most one point. A name has ASCII letters, digits and underscores and starts with no digit.
-/

namespace Questionnaire.Condition

open Questionnaire.Text

/-- The kinds of tokens. -/
inductive TokenKind
  | string
  | number
  | name
  | mark
  deriving DecidableEq, Repr

/-- A token: its kind and its text as written. -/
structure Token where
  kind : TokenKind
  chars : List Char
  deriving DecidableEq, Repr

/-- The text of a token. -/
def Token.text (t : Token) : String := String.ofList t.chars

/-- A character that opens and closes strings. -/
def isQuote (c : Char) : Bool := c == singleQuote || c == doubleQuote

/-- A character that may start a name. -/
def isNameStart (c : Char) : Bool := c.isAlpha || c == '_'

/-- A character that may stand in a name. -/
def isNameChar (c : Char) : Bool := c.isAlphanum || c == '_'

/-- One of the marks. -/
def isMark (c : Char) : Bool := ['(', ')', '[', ']', ','].contains c

/-- Splits a text after the first closing quote; none if the string does not end. -/
def closeString? (quote : Char) : List Char → Option (List Char × List Char)
  | [] => none
  | c :: r =>
    if c == quote then some ([c], r)
    else if c == backslash then
      match r with
      | [] => none
      | d :: r' =>
        if d == '\n' then none
        else (closeString? quote r').map fun (s, rest) => (c :: d :: s, rest)
    else (closeString? quote r).map fun (s, rest) => (c :: s, rest)

/-- Splits off the unsigned number at the start of a text. -/
def unsignedNumber? (cs : List Char) : Option (List Char × List Char) :=
  let whole := cs.takeWhile isDigit
  match cs.dropWhile isDigit with
  | '.' :: r =>
    let fraction := r.takeWhile isDigit
    if whole.isEmpty && fraction.isEmpty then none
    else some (whole ++ '.' :: fraction, r.dropWhile isDigit)
  | r => if whole.isEmpty then none else some (whole, r)

/-- Splits off the number at the start of a text. -/
def number? : List Char → Option (List Char × List Char)
  | '-' :: r => (unsignedNumber? r).map fun (n, rest) => ('-' :: n, rest)
  | cs => unsignedNumber? cs

/-- Splits off the token at the start of a text. -/
def token? (c : Char) (r : List Char) : Option (Token × List Char) :=
  if isQuote c then (closeString? c r).map fun (s, rest) => (⟨.string, c :: s⟩, rest)
  else
    match number? (c :: r) with
    | some (n, rest) => some (⟨.number, n⟩, rest)
    | none =>
      if isNameStart c then
        some (⟨.name, c :: r.takeWhile isNameChar⟩, r.dropWhile isNameChar)
      else if isMark c then some (⟨.mark, [c]⟩, r)
      else none

/-- The tokens of the rest of a text, `fuel` bounding their number and the number of blanks;
`whole` is the text that a message shows. -/
def tokensWithin (whole : List Char) : Nat → List Char → Except ParseError (List Token)
  | 0, _ => .ok []
  | _ + 1, [] => .ok []
  | fuel + 1, c :: r =>
    match token? c r with
    | some (t, rest) => (tokensWithin whole fuel rest).map (t :: ·)
    | none =>
      if isBlank c then tokensWithin whole fuel r
      else .error (.unexpectedCharacter c (String.ofList whole))

/-- The tokens of a predicate's text; a text without any is refused. -/
def tokens (cs : List Char) : Except ParseError (List Token) :=
  match tokensWithin cs cs.length cs with
  | .ok [] => .error (.noTokens (String.ofList cs))
  | r => r

end Questionnaire.Condition
