import Questionnaire.Number.Reading
import Questionnaire.Text.Quoted
import Questionnaire.Value.Basic

/-!
# Reading JSON

A document is one JSON value with blanks around it. A number without fraction and exponent is an
integer of any size, any other the nearest binary number. `NaN`, `Infinity` and `-Infinity` are read
as well. Control characters in a string must be escaped, and a low surrogate must follow a high one.
Members stay in the order in which they are written; of two with one key the later counts, at the
place of the first.
-/

namespace Questionnaire.Json

open Questionnaire.Text

/-- A blank between the parts of a document. -/
def isJsonBlank (c : Char) : Bool := c == ' ' || c == '\t' || c == '\n' || c == '\r'

/-- The text after leading blanks. -/
def skipBlanks (cs : List Char) : List Char := cs.dropWhile isJsonBlank

/-- The value of a hexadecimal digit. -/
def hexValue? (c : Char) : Option Nat :=
  if '0' ≤ c && c ≤ '9' then some (c.toNat - 0x30)
  else if 'a' ≤ c && c ≤ 'f' then some (c.toNat - 0x61 + 10)
  else if 'A' ≤ c && c ≤ 'F' then some (c.toNat - 0x41 + 10)
  else none

/-- The value of a run of hexadecimal digits. -/
def hexNumber? (cs : List Char) : Option Nat :=
  cs.foldl (fun n c => n.bind fun n => (hexValue? c).map fun d => 16 * n + d) (some 0)

/-- The character of an escape of one letter. -/
def shortEscape? : Char → Option Char
  | 'n' => some '\n'
  | 'r' => some '\r'
  | 't' => some '\t'
  | 'b' => some '\x08'
  | 'f' => some '\x0c'
  | '/' => some '/'
  | c => if c == doubleQuote || c == backslash then some c else none

/-- The character of a pair of surrogates. -/
def surrogatePair? (high low : Nat) : Option Char :=
  if 0xD800 ≤ high && high < 0xDC00 && 0xDC00 ≤ low && low < 0xE000 then
    some (Char.ofNat (0x10000 + (high - 0xD800) * 0x400 + (low - 0xDC00)))
  else none

/-- The rest of a string after its opening quote, and the text after it; `fuel` bounds its
length. -/
def stringWithin : Nat → List Char → Option (List Char × List Char)
  | 0, _ => none
  | _ + 1, [] => none
  | fuel + 1, c :: r =>
    if c == doubleQuote then some ([], r)
    else if c.toNat < 0x20 then none
    else if c == backslash then
      match r with
      | 'u' :: a :: b :: d :: e :: r => do
        let n ← hexNumber? [a, b, d, e]
        if n < 0xD800 || 0xE000 ≤ n then
          let (s, rest) ← stringWithin fuel r
          some (Char.ofNat n :: s, rest)
        else
          match r with
          | x :: 'u' :: a :: b :: d :: e :: r => do
            let low ← hexNumber? [a, b, d, e]
            let c ← if x == backslash then surrogatePair? n low else none
            let (s, rest) ← stringWithin fuel r
            some (c :: s, rest)
          | _ => none
      | x :: r => do
        let c ← shortEscape? x
        let (s, rest) ← stringWithin fuel r
        some (c :: s, rest)
      | [] => none
    else do
      let (s, rest) ← stringWithin fuel r
      some (c :: s, rest)

/-- A string after its opening quote. -/
def string? (cs : List Char) : Option (String × List Char) :=
  (stringWithin cs.length cs).map fun (s, rest) => (String.ofList s, rest)

/-- Splits off ASCII digits. -/
def digits (cs : List Char) : List Char × List Char :=
  (cs.takeWhile Char.isDigit, cs.dropWhile Char.isDigit)

/-- The fraction of a number and the text after it; a point without digits belongs to neither. -/
def fraction (cs : List Char) : List Char × List Char :=
  match cs with
  | '.' :: r =>
    let (ds, rest) := digits r
    if ds.isEmpty then ([], cs) else (ds, rest)
  | _ => ([], cs)

/-- The exponent of a number, if it has one, and the text after it. -/
def exponent (cs : List Char) : Option Int × List Char :=
  match cs with
  | c :: r =>
    if c == 'e' || c == 'E' then
      let (negative, r) := Binary64.splitSign r
      let (ds, rest) := digits r
      if ds.isEmpty then (none, cs) else (some (Binary64.signed negative (digitsValue ds)), rest)
    else (none, cs)
  | [] => (none, cs)

/-- The number at the start of an unsigned text. -/
def number? (negative : Bool) (cs : List Char) : Option (Value × List Char) :=
  let (whole, r) :=
    match cs with
    | '0' :: r => (['0'], r)
    | cs => digits cs
  if whole.isEmpty then none
  else
    let (frac, r) := fraction r
    let (exp, r) := exponent r
    if frac.isEmpty && exp.isNone then
      some (.int (Binary64.signed negative (digitsValue whole)), r)
    else
      some (.float (.ofDecimal negative (digitsValue (whole ++ frac))
        (exp.getD 0 - frac.length)), r)

/-- The words that stand for values. -/
def words : List (List Char × Value) :=
  [("null".toList, .null), ("true".toList, .bool true), ("false".toList, .bool false),
    ("NaN".toList, .float Binary64.notANumber), ("Infinity".toList, .float (.infinite false)),
    ("-Infinity".toList, .float (.infinite true))]

/-- The word at the start of a text. -/
def word? (cs : List Char) : Option (Value × List Char) :=
  words.findSome? fun (w, v) => if w.isPrefixOf cs then some (v, cs.drop w.length) else none

/-- The number or word at the start of a text. -/
def scalar? (cs : List Char) : Option (Value × List Char) :=
  match word? cs with
  | some x => some x
  | none =>
    match cs with
    | '-' :: r => number? true r
    | cs => number? false cs

mutual

/-- The value at the start of a text; `fuel` bounds twice the number of characters read. -/
def valueWithin : Nat → List Char → Option (Value × List Char)
  | 0, _ => none
  | fuel + 1, cs =>
    match cs with
    | '[' :: r =>
      match skipBlanks r with
      | ']' :: rest => some (.list [], rest)
      | r => (elementsWithin fuel r).map fun (items, rest) => (.list items, rest)
    | '{' :: r =>
      match skipBlanks r with
      | '}' :: rest => some (.map [], rest)
      | r => (membersWithin fuel r).map fun (entries, rest) => (Value.ofWritten entries, rest)
    | c :: r =>
      if c == doubleQuote then (string? r).map fun (s, rest) => (.text s, rest)
      else scalar? cs
    | [] => none

/-- The elements of a list up to its closing bracket. -/
def elementsWithin : Nat → List Char → Option (List Value × List Char)
  | 0, _ => none
  | fuel + 1, cs =>
    match valueWithin fuel cs with
    | none => none
    | some (v, r) =>
      match skipBlanks r with
      | ']' :: rest => some ([v], rest)
      | ',' :: r => (elementsWithin fuel (skipBlanks r)).map fun (vs, rest) => (v :: vs, rest)
      | _ => none

/-- The members of a mapping up to its closing brace. -/
def membersWithin : Nat → List Char → Option (List (String × Value) × List Char)
  | 0, _ => none
  | fuel + 1, cs =>
    match cs with
    | q :: r =>
      if q == doubleQuote then
        match string? r with
        | none => none
        | some (k, r) =>
          match skipBlanks r with
          | ':' :: r =>
            match valueWithin fuel (skipBlanks r) with
            | none => none
            | some (v, r) =>
              match skipBlanks r with
              | '}' :: rest => some ([(k, v)], rest)
              | ',' :: r =>
                (membersWithin fuel (skipBlanks r)).map fun (es, rest) => ((k, v) :: es, rest)
              | _ => none
          | _ => none
      else none
    | [] => none

end

/-- Reads a document. -/
def parse? (s : String) : Option Value :=
  let cs := skipBlanks s.toList
  match valueWithin (2 * cs.length + 2) cs with
  | some (v, rest) => if (skipBlanks rest).isEmpty then some v else none
  | none => none

end Questionnaire.Json
