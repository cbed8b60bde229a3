import Questionnaire.Number.Binary64
import Questionnaire.Text.Quoted

/-!
# Conditions

A condition is a predicate on one answer, several conditions joined by one connective, or the
negation of a condition. A predicate names a question by its variable and compares the answer with
a literal, tests the selected values against candidates, or asks whether there is an answer.
-/

namespace Questionnaire

/-- A constant in a condition. -/
inductive Literal
  | text (s : String)
  | int (i : Int)
  | float (x : Binary64)
  deriving DecidableEq, Repr, Inhabited

/-- Comparisons of one answer with one literal. -/
inductive Comparison
  | equals
  | notEquals
  | contains
  | startsWith
  | greaterThan
  | lessThan
  deriving DecidableEq, Repr, Inhabited

/-- Tests of the selected values against candidates. -/
inductive SelectionTest
  | any
  | all
  | none
  deriving DecidableEq, Repr, Inhabited

/-- Tests for the presence of an answer. -/
inductive EmptinessTest
  | isEmpty
  | notEmpty
  deriving DecidableEq, Repr, Inhabited

/-- What joins conditions. -/
inductive Connective
  | and
  | or
  deriving DecidableEq, Repr, Inhabited

/-- A condition. -/
inductive Condition
  | comparison (test : Comparison) (reference : String) (literal : Literal)
  | selection (test : SelectionTest) (reference : String) (candidates : List Literal)
  | emptiness (test : EmptinessTest) (reference : String)
  | joined (connective : Connective) (parts : List Condition)
  | negated (operand : Condition)
  deriving Repr, Inhabited

/-- The name of a comparison in condition text. -/
def Comparison.name : Comparison → String
  | .equals => "equals"
  | .notEquals => "notEquals"
  | .contains => "contains"
  | .startsWith => "startsWith"
  | .greaterThan => "greaterThan"
  | .lessThan => "lessThan"

/-- The name of a selection test in condition text. -/
def SelectionTest.name : SelectionTest → String
  | .any => "anySelected"
  | .all => "allSelected"
  | .none => "noneSelected"

/-- The name of an emptiness test in condition text. -/
def EmptinessTest.name : EmptinessTest → String
  | .isEmpty => "isEmpty"
  | .notEmpty => "notEmpty"

/-- The character that a connective's sign repeats. -/
def Connective.mark : Connective → Char
  | .and => '&'
  | .or => '|'

/-- A comparison of numbers, which takes no other literal than a number. -/
def Comparison.isNumeric : Comparison → Bool
  | .greaterThan | .lessThan => true
  | _ => false

/-- A predicate by its name. -/
inductive PredicateName
  | comparison (test : Comparison)
  | selection (test : SelectionTest)
  | emptiness (test : EmptinessTest)
  deriving DecidableEq, Repr

/-- The name of a predicate in condition text. -/
def PredicateName.name : PredicateName → String
  | .comparison t => t.name
  | .selection t => t.name
  | .emptiness t => t.name

/-- All predicates. -/
def PredicateName.all : List PredicateName :=
  [.comparison .equals, .comparison .notEquals, .comparison .contains, .comparison .startsWith,
    .comparison .greaterThan, .comparison .lessThan, .selection .any, .selection .all,
    .selection .none, .emptiness .isEmpty, .emptiness .notEmpty]

/-- The predicate with a name. -/
def PredicateName.ofName? (name : String) : Option PredicateName :=
  PredicateName.all.find? fun p => p.name == name

namespace Condition

mutual

/-- Whether two conditions are the same. -/
def same : Condition → Condition → Bool
  | .comparison t v l, .comparison t' v' l' => t == t' && v == v' && l == l'
  | .selection t v ls, .selection t' v' ls' => t == t' && v == v' && ls == ls'
  | .emptiness t v, .emptiness t' v' => t == t' && v == v'
  | .joined k cs, .joined k' cs' => k == k' && sameParts cs cs'
  | .negated c, .negated d => same c d
  | _, _ => false

/-- Whether two lists of conditions are the same. -/
def sameParts : List Condition → List Condition → Bool
  | [], [] => true
  | c :: cs, d :: ds => same c d && sameParts cs ds
  | _, _ => false

end

mutual

theorem same_self : ∀ c : Condition, same c c = true
  | .comparison .. | .selection .. | .emptiness .. => by simp [same]
  | .joined _ cs => by simp [same, sameParts_self cs]
  | .negated c => by simp [same, same_self c]

theorem sameParts_self : ∀ cs : List Condition, sameParts cs cs = true
  | [] => rfl
  | c :: cs => by simp [sameParts, same_self c, sameParts_self cs]

end

mutual

theorem eq_of_same : ∀ {c d : Condition}, same c d = true → c = d
  | .comparison .., d, h | .selection .., d, h | .emptiness .., d, h => by
    cases d <;> simp_all [same]
  | .joined k cs, d, h => by
    cases d with
    | joined k' ds =>
      obtain ⟨hk, hcs⟩ : k = k' ∧ sameParts cs ds = true := by simpa [same] using h
      rw [hk, eq_of_sameParts hcs]
    | _ => simp [same] at h
  | .negated c, d, h => by
    cases d with
    | negated d => exact congrArg Condition.negated (eq_of_same (by simpa [same] using h))
    | _ => simp [same] at h

theorem eq_of_sameParts : ∀ {cs ds : List Condition}, sameParts cs ds = true → cs = ds
  | [], [], _ => rfl
  | [], _ :: _, h | _ :: _, [], h => by simp [sameParts] at h
  | c :: cs, d :: ds, h => by
    obtain ⟨hc, hr⟩ : same c d = true ∧ sameParts cs ds = true := by simpa [sameParts] using h
    rw [eq_of_same hc, eq_of_sameParts hr]

end

instance : DecidableEq Condition := fun c d =>
  decidable_of_iff (same c d = true) ⟨eq_of_same, fun h => h ▸ same_self c⟩

mutual

/-- The variables that a condition names, in the order of the text, repeats included. -/
def references : Condition → List String
  | .comparison _ v _ => [v]
  | .selection _ v _ => [v]
  | .emptiness _ v => [v]
  | .joined _ parts => referencesOf parts
  | .negated c => references c

/-- The variables that a list of conditions names. -/
def referencesOf : List Condition → List String
  | [] => []
  | c :: r => references c ++ referencesOf r

end

mutual

/-- The literals of a condition, in the order of its text. -/
def literals : Condition → List Literal
  | .comparison _ _ l => [l]
  | .selection _ _ ls => ls
  | .emptiness .. => []
  | .joined _ parts => literalsOf parts
  | .negated c => literals c

/-- The literals of a list of conditions. -/
def literalsOf : List Condition → List Literal
  | [] => []
  | c :: r => literals c ++ literalsOf r

end

/-- Why a text is no condition. -/
inductive ParseError
  | emptyExpression
  | emptyOperand
  | unexpectedCharacter (c : Char) (text : String)
  | noTokens (text : String)
  | expectedName (found : String)
  | expectedMark (mark : String) (found : Option String)
  | unsupported (name : String)
  | unexpectedRest (tokens : List String)
  | unexpectedEnd
  | answerNeedsName
  | expectedReference (found : String)
  | expectedLiteral (found : String)
  | unclosedList
  | expectedNumber (name text : String)
  deriving DecidableEq, Repr

/-- The wording of a parse error. -/
def ParseError.message : ParseError → String
  | .emptyExpression => "Empty expression"
  | .emptyOperand => "Empty operand in composite expression"
  | .unexpectedCharacter c text =>
    "Unexpected character " ++ Text.quoted (String.singleton c) ++ " in '" ++ text ++ "'"
  | .noTokens text => "No valid tokens in expression: " ++ text
  | .expectedName found => "Expected a predicate name, got '" ++ found ++ "'"
  | .expectedMark mark found =>
    "Expected '" ++ mark ++ "', got '" ++ found.getD "end of expression" ++ "'"
  | .unsupported name => "Unsupported predicate: " ++ name
  | .unexpectedRest tokens => "Unexpected tokens after predicate: " ++ Text.quotedList tokens
  | .unexpectedEnd => "Unexpected end of expression"
  | .answerNeedsName => "answer() expects a quoted variable name"
  | .expectedReference found => "Expected a question reference, got '" ++ found ++ "'"
  | .expectedLiteral found => "Expected a literal, got '" ++ found ++ "'"
  | .unclosedList => "Missing closing bracket in value list"
  | .expectedNumber name text => name ++ " expects a number, got '" ++ text ++ "'"

end Condition

end Questionnaire
