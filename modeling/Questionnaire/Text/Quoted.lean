import Questionnaire.Text.Printable

/-!
# Quoted text

Messages show a text that an author or respondent wrote between quotes, so that blanks and control
characters can be seen. Single quotes are used, unless the text holds a single quote and no double
quote. A backslash and the quote in use are escaped, characters that are not printable are written
as hexadecimal escapes of two, four or eight digits, and line feed, carriage return and tab have
short escapes.
-/

namespace Questionnaire.Text

/-- The backslash. -/
def backslash : Char := '\x5c'

/-- The single quote. -/
def singleQuote : Char := '\x27'

/-- The double quote. -/
def doubleQuote : Char := '\x22'

/-- The lower-case hexadecimal digits of `n`, at least `width` of them. -/
def hexDigits (width n : Nat) : List Char :=
  let digits := Nat.toDigits 16 n
  List.replicate (width - digits.length) '0' ++ digits

/-- A hexadecimal escape of the shortest of the three widths that fits. -/
def hexEscape (c : Char) : List Char :=
  let n := c.toNat
  if n < 0x100 then backslash :: 'x' :: hexDigits 2 n
  else if n < 0x10000 then backslash :: 'u' :: hexDigits 4 n
  else backslash :: 'U' :: hexDigits 8 n

/-- One character as it stands between `quote`s. -/
def quotedChar (quote c : Char) : List Char :=
  if c == quote || c == backslash then [backslash, c]
  else if c == '\n' then [backslash, 'n']
  else if c == '\r' then [backslash, 'r']
  else if c == '\t' then [backslash, 't']
  else if isPrintable c then [c]
  else hexEscape c

/-- The quote used for a text: double quotes only around a text with single quotes alone. -/
def quoteFor (cs : List Char) : Char :=
  if cs.contains singleQuote && !cs.contains doubleQuote then doubleQuote else singleQuote

/-- The text between quotes, with escapes. -/
def quoted (s : String) : String :=
  let cs := s.toList
  let quote := quoteFor cs
  String.ofList (quote :: cs.flatMap (quotedChar quote) ++ [quote])

/-- A list of texts, each quoted, between square brackets. -/
def quotedList (texts : List String) : String :=
  "[" ++ ", ".intercalate (texts.map quoted) ++ "]"

end Questionnaire.Text
