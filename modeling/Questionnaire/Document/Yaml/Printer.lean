import Questionnaire.Document.Yaml.Style
import Questionnaire.Number.Shortest

/-!
# Writing YAML

A document is written in block style, two columns of indentation per level, with the members of a
mapping in the order of their keys. A list under a key is not indented. Long texts are folded at
blanks behind column eighty, and keys that are long, empty or of several lines are introduced by a
question mark.
-/

namespace Questionnaire.Yaml

open Questionnaire.Text

/-- What has been written, in reverse, and the state of the last line: its length, whether a blank
is in place before a word, and whether the line holds only indentation and signs. -/
structure Pen where
  written : List Char
  column : Nat
  spaced : Bool
  onlyIndent : Bool

namespace Pen

/-- Nothing is written yet. -/
def fresh : Pen := ⟨[], 0, true, true⟩

/-- Writes characters on the line. -/
def put (cs : List Char) (pen : Pen) : Pen :=
  { pen with written := cs.reverse ++ pen.written, column := pen.column + cs.length }

/-- Ends the line. -/
def endLine (pen : Pen) : Pen := ⟨'\n' :: pen.written, 0, true, true⟩

/-- Moves to an indentation, on a new line unless this one can still be used. -/
def indent (n : Nat) (pen : Pen) : Pen :=
  let pen :=
    if !pen.onlyIndent || n < pen.column || (pen.column == n && !pen.spaced) then pen.endLine
    else pen
  if pen.column < n then { pen.put (List.replicate (n - pen.column) ' ') with spaced := true }
  else pen

/-- Writes a sign after a blank, unless there is one. -/
def sign (cs : List Char) (pen : Pen) : Pen :=
  { pen.put (if pen.spaced then cs else ' ' :: cs) with spaced := false, onlyIndent := false }

/-- Writes a sign that begins an element, after which the line can still be indented. -/
def bullet (c : Char) (pen : Pen) : Pen := { pen.sign [c] with onlyIndent := pen.onlyIndent }

/-- Writes characters that end a word. -/
def close (cs : List Char) (pen : Pen) : Pen :=
  { pen.put cs with spaced := false, onlyIndent := false }

/-- The column behind which texts are folded. -/
def width : Nat := 80

/-- Goes on with a word on the next line. -/
def foldTo (n : Nat) (pen : Pen) : Pen :=
  { pen.indent n with spaced := false, onlyIndent := false }

/-! ## Texts -/

/-- What a run of a text consists of. -/
inductive RunKind
  | blanks
  | lineEnds
  | others
  deriving DecidableEq

/-- The kind of run that a character belongs to. -/
def RunKind.ofChar (c : Char) : RunKind :=
  if c == ' ' then .blanks else if Style.isLineEnd c then .lineEnds else .others

/-- The longest runs of one kind that a text consists of. -/
def runs (cs : List Char) : List (List Char) :=
  cs.splitBy fun a b => RunKind.ofChar a == RunKind.ofChar b

/-- Whether a run is one blank behind the width. -/
def foldsAt (run : List Char) (pen : Pen) : Bool := run == [' '] && decide (width < pen.column)

/-- Writes a run of an unquoted text. -/
def plainRun (folds : Bool) (n : Nat) (pen : Pen) (run : List Char) : Pen :=
  if folds && foldsAt run pen then pen.foldTo n else pen.put run

/-- Writes an unquoted text. -/
def plain (folds : Bool) (n : Nat) (cs : List Char) (pen : Pen) : Pen :=
  (runs cs).foldl (plainRun folds n) (pen.sign [])

/-- Writes a run of line ends between single quotes. -/
def lineEnds (n : Nat) (pen : Pen) (run : List Char) : Pen :=
  let pen := if run.head? == some '\n' then pen.endLine else pen
  (run.foldl (fun pen _ => pen.endLine) pen).indent n

/-- A character between single quotes. -/
def singleQuotedChar (c : Char) : List Char := if c == singleQuote then [c, c] else [c]

/-- Writes runs of a text between single quotes; blanks at either end of the text are not folded. -/
def singleQuotedRuns (folds : Bool) (n : Nat) : Bool → List (List Char) → Pen → Pen
  | _, [], pen => pen
  | isFirst, run :: r, pen =>
    let pen :=
      match run.head?.map RunKind.ofChar with
      | some .lineEnds => pen.lineEnds n run
      | some .blanks =>
        if folds && !isFirst && !r.isEmpty && foldsAt run pen then pen.indent n else pen.put run
      | _ => pen.put (run.flatMap singleQuotedChar)
    singleQuotedRuns folds n false r pen

/-- Writes a text between single quotes. -/
def singleQuoted (folds : Bool) (n : Nat) (cs : List Char) (pen : Pen) : Pen :=
  (singleQuotedRuns folds n true (runs cs) (pen.sign [singleQuote])).close [singleQuote]

/-- Breaks a text between double quotes before the character `next`. -/
def breakBefore (n : Nat) (next : Option Char) (pen : Pen) : Pen :=
  let pen := (pen.put [backslash]).foldTo n
  if next == some ' ' then pen.put [backslash] else pen

/-- Writes a text between double quotes, of which `held` is not yet written. A line is broken at
blanks and around escapes. -/
def doubleQuotedChars (folds : Bool) (n : Nat) :
    Bool → List Char → List Char → Pen → Pen
  | _, held, [], pen => pen.put held
  | isFirst, held, c :: r, pen =>
    let inside := folds && !isFirst && !r.isEmpty
    if Style.isEscaped c then
      let pen := (pen.put held).put (Style.escape c)
      let pen := if inside && decide (width + 1 < pen.column) then pen.breakBefore n r.head?
        else pen
      doubleQuotedChars folds n false [] r pen
    else if inside && (c == ' ' || held.isEmpty) && decide (width < pen.column + held.length) then
      doubleQuotedChars folds n false [c] r ((pen.put held).breakBefore n (some c))
    else doubleQuotedChars folds n false (held ++ [c]) r pen

/-- Writes a text between double quotes. -/
def doubleQuoted (folds : Bool) (n : Nat) (cs : List Char) (pen : Pen) : Pen :=
  (doubleQuotedChars folds n true [] cs (pen.sign [doubleQuote])).close [doubleQuote]

/-- Writes a text; further lines of it are indented by `n`. -/
def text (folds : Bool) (n : Nat) (s : String) (pen : Pen) : Pen :=
  match Style.ofText s with
  | .plain => pen.plain folds n s.toList
  | .singleQuoted => pen.singleQuoted folds n s.toList
  | .doubleQuoted => pen.doubleQuoted folds n s.toList

/-! ## Documents -/

/-- Numbers in YAML. -/
def layout : Binary64.Layout := ⟨".nan", ".inf", true⟩

/-- Where a value stands: at the root, as an element, or after a key. -/
inductive Seat
  | root
  | element
  | afterKey
  deriving DecidableEq

/-- The indentation of a mapping or list under the indentation around it. -/
def deeper (seat : Seat) (n : Nat) : Nat := if seat == .root then 0 else n + 2

/-- Writes a key and its colon. -/
def key (n : Nat) (k : String) (pen : Pen) : Pen :=
  let pen := pen.indent n
  if Style.isSimpleKey k then (pen.text false (n + 2) k).close [':']
  else (((pen.bullet '?').text true (n + 2) k).indent n).bullet ':'

mutual

/-- Writes a value under the indentation around it. -/
def value (seat : Seat) (n : Nat) : Value → Pen → Pen
  | .null, pen => pen.sign "null".toList
  | .bool b, pen => pen.sign (if b then "true" else "false").toList
  | .int i, pen => pen.sign (toString i).toList
  | .float x, pen => pen.sign (x.text layout).toList
  | .text s, pen => pen.text true (n + 2) s
  | .list [], pen => pen.sign ['[', ']']
  | .map [], pen => pen.sign ['{', '}']
  | .list (v :: r), pen =>
    elements (if seat == .afterKey && !pen.onlyIndent then n else deeper seat n) (v :: r) pen
  | .map (e :: r), pen => members (deeper seat n) (e :: r) pen

/-- Writes the elements of a list. -/
def elements (n : Nat) : List Value → Pen → Pen
  | [], pen => pen
  | v :: r, pen => elements n r (value .element n v ((pen.indent n).bullet '-'))

/-- Writes the members of a mapping. -/
def members (n : Nat) : List (String × Value) → Pen → Pen
  | [], pen => pen
  | (k, v) :: r, pen => members n r (value .afterKey n v (pen.key n k))

end

end Pen

/-- The text of a document, which is a mapping or a list. -/
def print (v : Value) : String :=
  String.ofList (((Pen.fresh.value .root 0 v).indent 0).written.reverse)

end Questionnaire.Yaml
