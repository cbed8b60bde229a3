import Questionnaire.Number.Binary64
import Questionnaire.Text.Blank
import Questionnaire.Text.DecimalDigit

/-!
# Reading numbers from text

A typed answer counts as a number when its text, less surrounding blanks, is a decimal number in
digits of any script: a sign, digits with at most one point, and an exponent. A single underscore
may separate two digits. The words `inf`, `infinity` and `nan` are read in any letter case.
-/

namespace Questionnaire.Binary64

open Questionnaire.Text

/-- Blanks around a number. The ASCII information separators are not among them. -/
def isNumberBlank (c : Char) : Bool := isBlank c && !(28 ≤ c.toNat && c.toNat ≤ 31)

/-- The text with digits of all scripts written in ASCII and without surrounding blanks. -/
def normalized (cs : List Char) : List Char :=
  ((((cs.map asciiDigit).dropWhile isNumberBlank).reverse).dropWhile isNumberBlank).reverse

/-- Removes the underscores that stand between two digits; any other underscore is refused. -/
def dropSeparators (afterDigit : Bool) : List Char → Option (List Char)
  | [] => some []
  | '_' :: d :: r =>
    if afterDigit && d.isDigit then (dropSeparators true r).map (d :: ·) else none
  | '_' :: [] => none
  | c :: r => (dropSeparators c.isDigit r).map (c :: ·)

/-- Splits off an optional sign: whether it is a minus, and the rest. -/
def splitSign : List Char → Bool × List Char
  | '-' :: r => (true, r)
  | '+' :: r => (false, r)
  | r => (false, r)

/-- The value of an exponent part: empty, or `e` with an optional sign and at least one digit. -/
def exponentPart? : List Char → Option Int
  | [] => some 0
  | c :: r =>
    if c == 'e' || c == 'E' then
      let (negative, digits) := splitSign r
      if digits.isEmpty || !digits.all Char.isDigit then none
      else some (signed negative (digitsValue digits))
    else none

/-- An unsigned decimal number: digits around at most one point, then an exponent part. -/
def decimal? (negative : Bool) (cs : List Char) : Option Binary64 :=
  let whole := cs.takeWhile Char.isDigit
  let afterWhole := cs.dropWhile Char.isDigit
  let (fraction, rest) :=
    match afterWhole with
    | '.' :: r => (r.takeWhile Char.isDigit, r.dropWhile Char.isDigit)
    | r => ([], r)
  if whole.isEmpty && fraction.isEmpty then none
  else (exponentPart? rest).map fun e =>
    ofDecimal negative (digitsValue (whole ++ fraction)) (e - fraction.length)

/-- An unsigned number: one of the three words, or a decimal number. -/
def unsigned? (negative : Bool) (cs : List Char) : Option Binary64 :=
  let word := String.ofList (cs.map Char.toLower)
  if word == "inf" || word == "infinity" then some (.infinite negative)
  else if word == "nan" then some notANumber
  else (dropSeparators false cs).bind (decimal? negative)

/-- Reads the text of a number. -/
def ofChars? (cs : List Char) : Option Binary64 :=
  let (negative, r) := splitSign (normalized cs)
  unsigned? negative r

/-- Reads the text of a number. -/
def ofText? (s : String) : Option Binary64 := ofChars? s.toList

end Questionnaire.Binary64
