import Questionnaire.Document.Yaml.Pattern
import Questionnaire.Number.Reading
import Questionnaire.Value.Basic

/-!
# Unquoted words in YAML

An unquoted word is a truth value, a number, nothing, or else a text. Numbers may hold underscores;
integers may be written in base two, eight or sixteen, and numbers to base sixty with colons. A
fraction needs a point and an exponent a sign, so `1e3` is a text.
-/

namespace Questionnaire.Yaml

open Questionnaire.Text

namespace Scalar

open Pattern

/-- The words for true. -/
def trueWords : List String :=
  ["yes", "Yes", "YES", "true", "True", "TRUE", "on", "On", "ON"]

/-- The words for false. -/
def falseWords : List String :=
  ["no", "No", "NO", "false", "False", "FALSE", "off", "Off", "OFF"]

/-- The words for nothing. -/
def nullWords : List String := ["", "~", "null", "Null", "NULL"]

/-- An optional sign. -/
def sign : Pattern := optional (oneOf "+-")

/-- Digits with underscores, after a first digit. -/
def digits : Pattern := all [digit, many (oneOf "0123456789_")]

/-- Digits with underscores, after a first digit that is not zero. -/
def positiveDigits : Pattern := all [oneOf "123456789", many (oneOf "0123456789_")]

/-- Further places of a number to base sixty. -/
def sixties : Pattern := some (all [char ':', optional (oneOf "012345"), digit])

/-- A point and a fraction that may be empty. -/
def fraction : Pattern := all [char '.', many (oneOf "0123456789_")]

/-- An exponent with a sign, or none. -/
def exponent : Pattern := optional (all [oneOf "eE", oneOf "+-", some digit])

/-- Numbers with a fraction. -/
def floatForm : Pattern := any
  [all [sign, digits, fraction, exponent],
    all [char '.', digits, exponent],
    all [sign, digits, sixties, fraction],
    all [sign, words [".inf", ".Inf", ".INF"]],
    words [".nan", ".NaN", ".NAN"]]

/-- Integers. -/
def intForm : Pattern := any
  [all [sign, word "0b", some (oneOf "01_")],
    all [sign, char '0', some (oneOf "01234567_")],
    all [sign, either (char '0') positiveDigits],
    all [sign, word "0x", some (oneOf "0123456789abcdefABCDEF_")],
    all [sign, positiveDigits, sixties]]

/-- A digit or two. -/
def shortNumber : Pattern := all [digit, optional digit]

/-- Two digits. -/
def twoDigits : Pattern := all [digit, digit]

/-- The offset of a time zone. -/
def zone : Pattern :=
  either (char 'Z') (all [oneOf "+-", shortNumber, optional (all [char ':', twoDigits])])

/-- Days, and points in time. -/
def timeForm : Pattern := any
  [all [twoDigits, twoDigits, char '-', twoDigits, char '-', twoDigits],
    all [twoDigits, twoDigits, char '-', shortNumber, char '-', shortNumber,
      either (oneOf "Tt") (some (oneOf " \t")), shortNumber, char ':', twoDigits, char ':',
      twoDigits, optional (all [char '.', many digit]),
      optional (all [many (oneOf " \t"), zone])]]

/-- The value of a digit in any base up to sixteen. -/
def digitOf (c : Char) : Nat :=
  if c.isDigit then c.toNat - 0x30 else c.toLower.toNat - 0x61 + 10

/-- The number that digits denote in a base. -/
def inBase (base : Nat) (cs : List Char) : Nat := cs.foldl (fun n c => base * n + digitOf c) 0

/-- The number that digits and colons denote to base sixty. -/
def inSixties (cs : List Char) : Nat :=
  let (n, last) := cs.foldl
    (fun (n, place) c => if c == ':' then (60 * (n + place), 0) else (n, 10 * place + digitOf c))
    (0, 0)
  n + last

/-- The value of an integer without its sign. -/
def natural (cs : List Char) : Nat :=
  match cs with
  | '0' :: 'b' :: r => inBase 2 r
  | '0' :: 'x' :: r => inBase 16 r
  | '0' :: r => inBase 8 r
  | cs => if cs.contains ':' then inSixties cs else inBase 10 cs

/-- The parts of a text between colons. -/
def colonParts : List Char → List (List Char)
  | [] => [[]]
  | c :: r =>
    match colonParts r with
    | [] => [[c]]
    | part :: more => if c == ':' then [] :: part :: more else (c :: part) :: more

/-- The sum of parts to base sixty, the last part first, from a sum and a power of sixty on. Every
product and sum is rounded. -/
def sumOfSixties : Binary64 → Nat → List (List Char) → Binary64
  | sum, _, [] => sum
  | sum, power, part :: r =>
    let x := (Binary64.decimal? false part).getD Binary64.notANumber
    sumOfSixties (sum.add (x.mul (.ofRatio false power 1))) (60 * power) r

/-- The value of a number with a fraction, without its sign. -/
def fractional (cs : List Char) : Binary64 :=
  let word := String.ofList (cs.map Char.toLower)
  if word == ".inf" then .infinite false
  else if word == ".nan" then Binary64.notANumber
  else if cs.contains ':' then sumOfSixties (.ofRatio false 0 1) 1 (colonParts cs).reverse
  else (Binary64.decimal? false cs).getD Binary64.notANumber

/-- A word without its underscores, and whether it has a minus. -/
def unsigned (cs : List Char) : Bool × List Char :=
  Binary64.splitSign (cs.filter (· != '_'))

/-- The value of an unquoted word. -/
def value (s : String) : Value :=
  let cs := s.toList
  if trueWords.contains s then .bool true
  else if falseWords.contains s then .bool false
  else if nullWords.contains s then .null
  else if floatForm.accepts cs then
    let (negative, r) := unsigned cs
    .float (if negative then (fractional r).neg else fractional r)
  else if intForm.accepts cs then
    let (negative, r) := unsigned cs
    .int (Binary64.signed negative (natural r))
  else .text s

/-- Whether an unquoted word would be read back as the text that it is. -/
def isText (s : String) : Bool :=
  match value s with
  | .text _ => !timeForm.accepts s.toList && s != "=" && s != "<<"
  | _ => false

end Scalar

end Questionnaire.Yaml
