import Questionnaire.Document.Yaml.Scalar
import Questionnaire.Text.Quoted

/-!
# How a text is written in YAML

A text is written as it stands if it can be read back so, else between single quotes, and between
double quotes with escapes if it has anything but ASCII or blanks next to line breaks.
-/

namespace Questionnaire.Yaml

open Questionnaire.Text

/-- The three ways to write a text. -/
inductive Style
  | plain
  | singleQuoted
  | doubleQuoted
  deriving DecidableEq, Repr

namespace Style

/-- A character that ends a line in a text to be written. -/
def isLineEnd (c : Char) : Bool :=
  c == '\n' || c == '\u0085' || c == '\u2028' || c == '\u2029'

/-- A character that separates words in a text to be written. -/
def isGap (c : Char) : Bool :=
  c == '\u0000' || c == ' ' || c == '\t' || c == '\r' || isLineEnd c

/-- Whether a text starts with a separator or is empty. -/
def atGap (cs : List Char) : Bool := cs.head?.all isGap

/-- The characters that may not start an unquoted text. -/
def openers : List Char :=
  "#,[]\x7b\x7d&*!|>%@\x60".toList ++ [singleQuote, doubleQuote]

/-- Whether the start of a text could be taken for a sign. -/
def startsLikeSign (cs : List Char) : Bool :=
  "---".toList.isPrefixOf cs || "...".toList.isPrefixOf cs ||
    match cs with
    | [] => false
    | c :: r => openers.contains c || ((c == '?' || c == ':' || c == '-') && atGap r)

/-- Whether a text after a character could be taken for a sign: a colon before a separator, or a
comment after one. -/
def continuesLikeSign (previous : Char) : List Char → Bool
  | [] => false
  | c :: r =>
    (c == ':' && atGap r) || (c == '#' && isGap previous) || continuesLikeSign c r

/-- Whether a text could be taken for something else than a word. -/
def looksLikeSign (cs : List Char) : Bool :=
  startsLikeSign cs ||
    match cs with
    | [] => false
    | c :: r => continuesLikeSign c r

/-- Whether a character needs an escape. -/
def isSpecial (c : Char) : Bool := !(c == '\n' || (0x20 ≤ c.toNat && c.toNat ≤ 0x7E))

/-- Whether a text has a blank next to a line end. -/
def hasBlankAtLineEnd : List Char → Bool
  | a :: b :: r =>
    (a == ' ' && isLineEnd b) || (isLineEnd a && b == ' ') || hasBlankAtLineEnd (b :: r)
  | _ => false

/-- Whether a text has a line end. -/
def isMultiline (cs : List Char) : Bool := cs.any isLineEnd

/-- Whether a text may stand between single quotes. -/
def allowsSingleQuotes (cs : List Char) : Bool := !cs.any isSpecial && !hasBlankAtLineEnd cs

/-- Whether a text starts or ends with a blank. -/
def hasOuterBlank (cs : List Char) : Bool := cs.head? == some ' ' || cs.getLast? == some ' '

/-- Whether a text may stand without quotes. -/
def allowsPlain (s : String) : Bool :=
  let cs := s.toList
  Scalar.isText s && allowsSingleQuotes cs && !isMultiline cs && !hasOuterBlank cs &&
    !looksLikeSign cs

/-- The way to write a text. -/
def ofText (s : String) : Style :=
  if allowsPlain s then .plain
  else if allowsSingleQuotes s.toList then .singleQuoted
  else .doubleQuoted

/-- The greatest length of a key that stands before its colon on one line. -/
def maxKeyLength : Nat := 122

/-- Whether a key stands before its colon on one line. -/
def isSimpleKey (s : String) : Bool :=
  let cs := s.toList
  !cs.isEmpty && !isMultiline cs && decide (cs.length ≤ maxKeyLength)

/-! ## Escapes -/

/-- The letters of the short escapes. -/
def letters : List (Char × Char) :=
  [('\u0000', '0'), ('\u0007', 'a'), ('\u0008', 'b'), ('\t', 't'), ('\n', 'n'), ('\u000b', 'v'),
    ('\u000c', 'f'), ('\r', 'r'), ('\u001b', 'e'), (doubleQuote, doubleQuote),
    (backslash, backslash), ('\u0085', 'N'), ('\u00a0', '_'), ('\u2028', 'L'), ('\u2029', 'P')]

/-- Whether a character is escaped between double quotes. -/
def isEscaped (c : Char) : Bool := c == doubleQuote || c == backslash || c == '\n' || isSpecial c

/-- A hexadecimal number in capital letters. -/
def capitalDigits (width n : Nat) : List Char := (hexDigits width n).map Char.toUpper

/-- The escape of a character. -/
def escape (c : Char) : List Char :=
  match letters.find? fun e => e.1 == c with
  | some (_, l) => [backslash, l]
  | none =>
    let n := c.toNat
    if n < 0x100 then backslash :: 'x' :: capitalDigits 2 n
    else if n < 0x10000 then backslash :: 'u' :: capitalDigits 4 n
    else backslash :: 'U' :: capitalDigits 8 n

end Style

end Questionnaire.Yaml
