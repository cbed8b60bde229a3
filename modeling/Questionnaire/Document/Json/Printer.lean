import Questionnaire.Number.Shortest
import Questionnaire.Text.Quoted
import Questionnaire.Value.Basic

/-!
# Writing JSON

A document is written on one line with a blank after every comma and colon. Members stand in the
order of the mapping, which is that of their keys. Text is ASCII: other characters are escaped by
their UTF-16 units. What is not a finite number is written `NaN`, `Infinity` or `-Infinity`.
-/

namespace Questionnaire.Json

open Questionnaire.Text

/-- Numbers in JSON. -/
def layout : Binary64.Layout := ⟨"NaN", "Infinity", false⟩

/-- The escape of one UTF-16 unit. -/
def unitEscape (n : Nat) : List Char := backslash :: 'u' :: hexDigits 4 n

/-- A character as it stands in a string. -/
def stringChar (c : Char) : List Char :=
  let n := c.toNat
  if c == doubleQuote || c == backslash then [backslash, c]
  else if c == '\n' then [backslash, 'n']
  else if c == '\r' then [backslash, 'r']
  else if c == '\t' then [backslash, 't']
  else if n == 8 then [backslash, 'b']
  else if n == 12 then [backslash, 'f']
  else if 0x20 ≤ n && n < 0x7F then [c]
  else if n < 0x10000 then unitEscape n
  else unitEscape (0xD800 + (n - 0x10000) / 0x400) ++ unitEscape (0xDC00 + (n - 0x10000) % 0x400)

/-- A string. -/
def string (s : String) : List Char :=
  doubleQuote :: s.toList.flatMap stringChar ++ [doubleQuote]

/-- What separates two elements. -/
def comma : List Char := [',', ' ']

/-- What separates a key from its value. -/
def colon : List Char := [':', ' ']

mutual

/-- A value. -/
def chars : Value → List Char
  | .null => "null".toList
  | .bool b => if b then "true".toList else "false".toList
  | .int i => (toString i).toList
  | .float x => (x.text layout).toList
  | .text s => string s
  | .list items => '[' :: elementChars items ++ [']']
  | .map entries => '{' :: memberChars entries ++ ['}']

/-- The elements of a list. -/
def elementChars : List Value → List Char
  | [] => []
  | v :: r =>
    match r with
    | [] => chars v
    | w :: r' => chars v ++ comma ++ elementChars (w :: r')

/-- The members of a mapping. -/
def memberChars : List (String × Value) → List Char
  | [] => []
  | (k, v) :: r =>
    match r with
    | [] => string k ++ colon ++ chars v
    | e :: r' => string k ++ colon ++ chars v ++ comma ++ memberChars (e :: r')

end

/-- The text of a document. -/
def print (v : Value) : String := String.ofList (chars v)

end Questionnaire.Json
