import Questionnaire.Condition.Verdict

/-!
# Faults

Why an operation on a session has no result.
-/

namespace Questionnaire

/-- Why an operation failed. -/
inductive Fault
  /-- A condition needs an integer as a binary number, and it is too large for one. -/
  | numberTooLarge
  /-- A condition is not a text. -/
  | conditionNotText
  /-- An authored value is not of the kind that is needed. -/
  | wrongKind
  /-- A text that must be a number is none. -/
  | notNumber (text : String)
  /-- The share of an iteration in no iterations at all is asked for; `exact` if both are
  integers. -/
  | divisionByZero (exact : Bool)
  /-- What is not a number is to be rounded. -/
  | notRoundable
  /-- A loop plan's cursor points before its first item. -/
  | noSuchItem
  | unknownPage (id : Id)
  | unknownQuestion (id : Id)
  | noCurrentPage (sessionId : Id)
  | sessionExists (id : Id)
  | sessionNotFound (id : Id)
  /-- A session's id names a file in a directory that does not exist. -/
  | noDirectory
  /-- A session's id is too long for the name of a file. -/
  | nameTooLong
  /-- A session's id holds a character that no name of a file has. -/
  | nulInName
  | staleSession (id : Id) (version : Value)
  /-- The pages of a battery lead back to its own start without end. -/
  | endlessLoop
  deriving DecidableEq

/-- The wording of a fault. -/
def Fault.message : Fault → String
  | .numberTooLarge => Condition.Failure.tooLarge.message
  | .conditionNotText => Condition.Failure.notText.message
  | .wrongKind => "wrong kind of value"
  | .notNumber text => "could not convert string to float: " ++ Text.quoted text
  | .divisionByZero exact => (if exact then "" else "float ") ++ "division by zero"
  | .notRoundable => "cannot convert float NaN to integer"
  | .noSuchItem => "list index out of range"
  | .unknownPage id => "Unknown page: " ++ id.display
  | .unknownQuestion id => "Unknown question: " ++ id.display
  | .noCurrentPage sessionId => "Session " ++ sessionId.display ++ " has no current page"
  | .sessionExists id => "Session already exists: " ++ id.display
  | .sessionNotFound id => id.display
  | .noDirectory => "no such directory"
  | .nameTooLong => "name too long"
  | .nulInName => "embedded null byte"
  | .staleSession id version =>
    "Session " ++ id.display ++ " changed since version " ++ version.display
  | .endlessLoop => "Navigation does not end"

/-- The fault of work that needs the verdict on a condition for which there is none. -/
def Condition.Failure.fault : Condition.Failure → Fault
  | .notText => .conditionNotText
  | .unusableId => .wrongKind
  | _ => .numberTooLarge

/-- Fails unless values can be put in an order. -/
def demandComparable (l : List Value) : Except Fault Unit :=
  if Value.areComparable l then .ok () else .error .wrongKind

/-- Fails unless something can be kept under ids. -/
def demandKeys (ids : List Id) : Except Fault Unit :=
  if ids.any Value.isCompound then .error .wrongKind else .ok ()

theorem demandKeys_eq_ok_iff {ids : List Id} :
    demandKeys ids = .ok () ↔ ∀ id ∈ ids, id.isCompound = false := by
  have hnone : ids.any Value.isCompound = false ↔ ∀ id ∈ ids, id.isCompound = false := by simp
  rw [← hnone, demandKeys]
  cases ids.any Value.isCompound <;> simp

end Questionnaire
