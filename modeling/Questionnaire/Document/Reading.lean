import Questionnaire.Register

/-!
# Reading documents

Definitions and sessions are stored as documents: values made of mappings, lists, texts, numbers and
truth values. Reading a document fails at the first thing that is wrong, in the order in which its
members are read.
-/

namespace Questionnaire

/-- Why a document cannot be read. -/
inductive DocumentError
  /-- A member that must be there is not. -/
  | missing (key : String)
  /-- A member has a value that names no alternative of a type. -/
  | notOneOf (value : Value) (typeName : String)
  /-- A value is not of the kind that is needed. -/
  | wrongKind
  /-- A value that must be a mapping has no members to look at. -/
  | noMembers
  /-- An element of a list of entries is not a pair of a key and a value. -/
  | notPair (index length : Nat)

/-- The wording of a document error. -/
def DocumentError.message : DocumentError → String
  | .missing key => key
  | .notOneOf value typeName => value.quoted ++ " is not a valid " ++ typeName
  | .wrongKind => "wrong kind of value"
  | .noMembers => "value without members"
  | .notPair index length =>
    "dictionary update sequence element #" ++ toString index ++ " has length " ++
      toString length ++ "; 2 is required"

/-- The result of reading a document or a part of one. -/
abbrev Reading := Except DocumentError

namespace Document

/-- The document with the given members. -/
def ofMembers (members : List (String × Value)) : Value := Value.ofEntries members

/-- The document of a list. -/
def ofList {α : Type} (f : α → Value) (l : List α) : Value := .list (l.map f)

/-- A member that must be there. -/
def required (d : Value) (key : String) : Reading Value :=
  match d with
  | .map entries =>
    match Dict.lookup key entries with
    | some v => .ok v
    | none => .error (.missing key)
  | _ => .error .wrongKind

/-- A member that may be missing. -/
def optional (d : Value) (key : String) (default : Value) : Reading Value :=
  match d with
  | .map entries => .ok ((Dict.lookup key entries).getD default)
  | _ => .error .noMembers

/-- The elements of a list, the characters of a text, or the keys of a mapping. -/
def elements : Value → Reading (List Value)
  | .list items => .ok items
  | .text s => .ok (s.toList.map fun c => .text (String.singleton c))
  | .map entries => .ok (entries.map fun e => .text e.1)
  | _ => .error .wrongKind

/-- A list whose elements are read one by one. -/
def asList {α : Type} (read : Value → Reading α) (v : Value) : Reading (List α) := do
  (← elements v).mapM read

/-- A value under which something can be kept. -/
def asKey (v : Value) : Reading Id := if v.isCompound then .error .wrongKind else .ok v

/-- The entry that an element of a list of entries is. -/
def asEntry (index : Nat) (v : Value) : Reading (Id × Value) := do
  match ← elements v with
  | [k, w] => return (← asKey k, w)
  | l => .error (.notPair index l.length)

/-- The entries that the elements of a list are, from a position on. -/
def asEntries : Nat → List Value → Reading (List (Id × Value))
  | _, [] => .ok []
  | n, v :: r => do
    let e ← asEntry n v
    return e :: (← asEntries (n + 1) r)

/-- A register of values, given as a mapping or as a list of its entries. -/
def asRegister : Value → Reading (Register Value)
  | .map entries => .ok (.ofTexts (Dict.ofList entries))
  | v => do return Register.ofList (← asEntries 0 (← elements v))

/-- The document of a register of values. -/
def ofRegister (r : Register Value) : Value := .ofDict r.toDict

/-- A dictionary whose values are read one by one. -/
def asDictOf {α : Type} (read : Value → Reading α) : Value → Reading (Dict α)
  | .map entries => do
    let read ← entries.mapM fun e => (read e.2).map fun a => (e.1, a)
    .ok (Dict.ofList read)
  | _ => .error .noMembers

/-- An alternative named by its code. -/
def oneOf {α : Type} (typeName : String) (ofCode? : String → Option α) (v : Value) : Reading α :=
  match v with
  | .text code =>
    match ofCode? code with
    | some a => .ok a
    | none => .error (.notOneOf v typeName)
  | _ => .error (.notOneOf v typeName)

end Document

end Questionnaire
