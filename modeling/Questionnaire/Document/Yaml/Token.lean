import Questionnaire.Value.Basic

/-!
# The tokens of YAML

A text in YAML is cut into words, signs and the brackets that its indentation stands for.
-/

namespace Questionnaire.Yaml

/-- Why a text is no document. -/
inductive Defect
  /-- A character that may not stand in any document. -/
  | character
  /-- Characters that form no token, or a token that may not stand where it is. -/
  | token
  /-- Tokens that form no document. -/
  | structural
  /-- More than one document. -/
  | secondDocument
  /-- A key or word that has no value. -/
  | meaningless
  deriving DecidableEq, Repr, Inhabited

/-- A token. -/
inductive Token
  /-- The start of a mapping or a list by indentation, and the end of either. -/
  | mappingStart
  | listStart
  | blockEnd
  /-- What introduces a key, a value and an element of a list. -/
  | key
  | value
  | entry
  /-- The brackets and commas of the one-line style. -/
  | openBracket
  | closeBracket
  | openBrace
  | closeBrace
  | comma
  /-- An unquoted and a quoted word. -/
  | plain (s : String)
  | quoted (s : String)
  /-- The marks around documents, and the end of the text. -/
  | documentStart
  | documentEnd
  | streamEnd
  deriving DecidableEq, Repr, Inhabited

/-! ## Characters -/

/-- A character that ends a line; other line breaks were made into these before. -/
def isBreak (c : Char) : Bool := c == '\n' || c == '\u2028' || c == '\u2029'

/-- A character that separates words. -/
def isSpace (c : Char) : Bool := c == ' ' || c == '\t' || isBreak c

/-- Whether a text starts with a separator or is at its end. -/
def atSpace : List Char → Bool
  | [] => true
  | c :: _ => isSpace c

/-- A character that may stand in a document. -/
def isAllowed (c : Char) : Bool :=
  let n := c.toNat
  n == 9 || n == 10 || n == 13 || (0x20 ≤ n && n ≤ 0x7E) || n == 0x85 ||
    (0xA0 ≤ n && n ≤ 0xD7FF) || (0xE000 ≤ n && n ≤ 0xFFFD) || 0x10000 ≤ n

/-- The text with carriage returns and next-line characters made into line feeds. -/
def unifyBreaks : List Char → List Char
  | [] => []
  | c :: r =>
    if c == '\r' then
      match r with
      | '\n' :: r' => '\n' :: unifyBreaks r'
      | r' => '\n' :: unifyBreaks r'
    else if c == '\u0085' then '\n' :: unifyBreaks r
    else c :: unifyBreaks r

/-! ## Places -/

/-- A place in a text: what is left of the text, and where that starts. -/
structure Place where
  rest : List Char
  line : Nat
  column : Nat
  offset : Nat

namespace Place

/-- The start of a text. -/
def start (cs : List Char) : Place := ⟨cs, 0, 0, 0⟩

/-- The place after one character. A byte order mark takes no column. -/
def next (p : Place) : Place :=
  match p.rest with
  | [] => p
  | c :: r =>
    if isBreak c then ⟨r, p.line + 1, 0, p.offset + 1⟩
    else if c == '\ufeff' then ⟨r, p.line, p.column, p.offset + 1⟩
    else ⟨r, p.line, p.column + 1, p.offset + 1⟩

/-- The place after some characters. -/
def skip (p : Place) : Nat → Place
  | 0 => p
  | n + 1 => p.next.skip n

/-- The place after the characters at its start that pass a test. -/
def skipWhile (p : Place) (test : Char → Bool) : Place := p.skip (p.rest.takeWhile test).length

/-- Whether a mark that separates documents stands here, at the start of a line. -/
def atDocumentMark (p : Place) : Bool :=
  match p.rest with
  | a :: b :: c :: r => (a == '-' || a == '.') && a == b && b == c && atSpace r
  | _ => false

end Place

end Questionnaire.Yaml
