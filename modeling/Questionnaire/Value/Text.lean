import Questionnaire.Value.Basic
import Questionnaire.Number.Shortest
import Questionnaire.Text.Quoted

/-!
# The text of a value

Piped answers, labels and messages show a value as text. A text shows itself; inside a list or a
mapping, and in messages, it is quoted. Truth values are capitalised words and nothing is `None`.
-/

namespace Questionnaire.Value

mutual

/-- The text of a value with every text in it quoted. -/
def quoted : Value → String
  | .null => "None"
  | .bool b => if b then "True" else "False"
  | .int i => toString i
  | .float x => x.text Binary64.plainLayout
  | .text s => Text.quoted s
  | .list items => "[" ++ ", ".intercalate (quotedItems items) ++ "]"
  | .map entries => "\x7b" ++ ", ".intercalate (quotedEntries entries) ++ "\x7d"

/-- The texts of the elements of a list. -/
def quotedItems : List Value → List String
  | [] => []
  | v :: r => quoted v :: quotedItems r

/-- The texts of the entries of a mapping: key, colon, value. -/
def quotedEntries : List (String × Value) → List String
  | [] => []
  | (k, v) :: r => (Text.quoted k ++ ": " ++ quoted v) :: quotedEntries r

end

/-- The text of a value as a respondent sees it. -/
def display : Value → String
  | .text s => s
  | v => v.quoted

end Questionnaire.Value
