import Questionnaire.Condition.Basic
import Questionnaire.Document.Reading

/-!
# Documents of conditions

The tree of a condition for tools that show or check authored conditions.
-/

namespace Questionnaire

open Document

/-- The document of a literal. -/
def Literal.toDocument : Literal → Value
  | .text s => .text s
  | .int i => .int i
  | .float x => .float x

/-- The code of a connective. -/
def Connective.code : Connective → String
  | .and => "AND"
  | .or => "OR"

namespace Condition

/-- The members of a predicate's document that all predicates have. -/
def predicateMembers (node operator reference : String) : List (String × Value) :=
  [("node", .text node), ("operator", .text operator), ("variable", .text reference)]

mutual

/-- The document of a condition. -/
def toDocument : Condition → Value
  | .comparison test v literal => ofMembers
    (predicateMembers "Comparison" test.name v ++ [("value", literal.toDocument)])
  | .selection test v candidates => ofMembers
    (predicateMembers "Selection" test.name v ++
      [("values", ofList Literal.toDocument candidates)])
  | .emptiness test v => ofMembers (predicateMembers "Emptiness" test.name v)
  | .joined connective parts => ofMembers
    [("node", .text "Logical"), ("operator", .text connective.code),
      ("operands", .list (toDocuments parts))]
  | .negated c => ofMembers [("node", .text "Negation"), ("operand", toDocument c)]

/-- The documents of a list of conditions. -/
def toDocuments : List Condition → List Value
  | [] => []
  | c :: r => toDocument c :: toDocuments r

end

end Condition

end Questionnaire
