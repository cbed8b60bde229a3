import Questionnaire.Document.Json.Reader
import Questionnaire.Event
import Questionnaire.Record

/-!
# Session stores

A store keeps sessions under their ids. A write is accepted only if the session's version is the
stored one, and the stored session's version is one higher; so of two writers who loaded the same
state only the first succeeds. Sessions are kept as they are, or as records in files named for the
texts of their ids.

An id may hold slashes, and then it names a file in another directory than the store's; a slash at
its start leads to the root. Only the directories above the store's are known to exist, so a file
can be written into those, but into no other one (`Store.filePath`).
-/

namespace Questionnaire

/-- A store of sessions. Records stand under the paths of their files, as seen from the store's
directory. -/
inductive Store
  | memory (sessions : Register Session)
  | files (records : Dict String)

namespace Store

/-- An empty store that keeps sessions as they are. -/
def emptyMemory : Store := .memory ∅

/-- An empty store that keeps records. -/
def emptyFiles : Store := .files ∅

/-- The way one directory up. -/
def upward : String := ".."

/-- The greatest number of bytes in the name of a file or directory. -/
def nameLimit : Nat := 255

/-- The greatest number of bytes in a path from the store's directory. -/
def pathLimit : Nat := 4078

/-- The parts of the path of the file for a session's id. Empty parts and single dots lead nowhere
else. -/
def pathParts (id : String) : List String :=
  (((id ++ ".json").toList.splitOn '/').map .ofList).filter fun part => part != "" && part != "."

/-- The path of the file for the text of a session's id, if it can be a file. -/
def filePath (id : String) : Except Fault String :=
  let parts := pathParts id
  let path := "/".intercalate parts
  if id.toList.contains '\x00' then .error .nulInName
  else if pathLimit < path.utf8ByteSize then .error .nameTooLong
  else if (parts.find? (· != upward)).any fun part => nameLimit < part.utf8ByteSize then
    .error .nameTooLong
  else if parts.dropLast.all (· == upward) then
    .ok (if id.startsWith "/" then "/" ++ path else path)
  else .error .noDirectory

/-- The session of a record's text. -/
def sessionOf? (text : String) : Option Session :=
  (Json.parse? text).bind fun d => (Session.ofDocument d).toOption

/-- The text of a session's file. -/
def fileText? (store : Store) (id : Id) : Option String :=
  match store with
  | .memory _ => none
  | .files records => (filePath id.display).toOption.bind records.get?

/-- The session stored under an id. -/
def find? (store : Store) (id : Id) : Option Session :=
  match store with
  | .memory sessions => sessions.get? id
  | .files _ => (store.fileText? id).bind sessionOf?

/-- The store with a session under its id. -/
def write (store : Store) (s : Session) : Except Fault Store :=
  match store with
  | .memory sessions => .ok (.memory (sessions.set s.id s))
  | .files records => do
    let text ← s.record
    let path ← filePath s.id.display
    .ok (.files (records.set path text))

/-- Whether there is a session under the id. -/
def exists? (store : Store) (id : Id) : Bool :=
  match store with
  | .memory sessions => sessions.contains id
  | .files _ => (store.fileText? id).isSome

/-- Why nothing can be kept or looked for under the id, unless it is only for want of a
directory. -/
def idFault? (store : Store) (id : Id) : Option Fault :=
  match store with
  | .memory _ => if id.isCompound then some .wrongKind else none
  | .files _ =>
    match filePath id.display with
    | .ok _ | .error .noDirectory => none
    | .error e => some e

/-- The session under an id. -/
def load (store : Store) (id : Id) : Except Fault Session :=
  match store.find? id with
  | some s => .ok s
  | none => .error ((store.idFault? id).getD (.sessionNotFound id))

/-- Tells whether there is a session under an id; there is none under a name that no file has. -/
def existence (store : Store) (id : Id) : Except Fault Bool :=
  match store.idFault? id with
  | none | some .nulInName => .ok (store.exists? id)
  | some e => .error e

/-- Stores a new session at version zero: the stored session and the store. -/
def create (store : Store) (s : Session) : Except Fault (Session × Store) := do
  if ← store.existence s.id then .error (.sessionExists s.id)
  else
    let stored := { s with version := .int 0 }
    (store.write stored).map fun after => (stored, after)

/-- Stores a session whose version is the stored one: the stored session and the store. -/
def save (store : Store) (s : Session) : Except Fault (Session × Store) := do
  let current ← store.load s.id
  if current.version.equal s.version then
    let stored := { s with version := current.version.shifted 1 }
    (store.write stored).map fun after => (stored, after)
  else .error (.staleSession s.id s.version)

/-- The warning about a write that is refused because the session changed. -/
def saveEvents (store : Store) (s : Session) : List Event :=
  match store.find? s.id with
  | some current =>
    if current.version.equal s.version then [] else [.staleWrite s.id s.version current.version]
  | none => []

/-- The store after another writer loaded a session and saved it unchanged. -/
def touched (store : Store) (id : Id) : Store :=
  match store.load id >>= store.save with
  | .ok (_, after) => after
  | .error _ => store

/-- The names of the files in the directory of a store of records, in increasing order. -/
def fileNames? (store : Store) : Option (List String) :=
  match store with
  | .memory _ => none
  | .files records => some (sortedTexts (records.keys.filter fun path => !path.contains '/'))

end Store

end Questionnaire
