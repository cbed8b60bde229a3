import Questionnaire.Chance.Generator
import Questionnaire.Event
import Questionnaire.Fault
import Questionnaire.Session.Basic

/-!
# Work on one session

An operation works on a desk: the session in its present state, the generator of random choices and
the log so far. A `Flow` is such work. When it fails, the desk stays as it was at that point: what
was changed and logged before is not taken back.
-/

namespace Questionnaire

/-- What an operation works on. -/
structure Desk where
  session : Session
  generator : Generator
  events : List Event
  deriving Inhabited

/-- Work on a desk that may fail. -/
abbrev Flow := ExceptT Fault (StateM Desk)

namespace Flow

/-- Does the work on a desk. -/
def perform {α : Type} (f : Flow α) (d : Desk) : Except Fault α × Desk := f.run.run d

/-- Adds an event to the log. -/
def log (e : Event) : Flow Unit := modify fun d => { d with events := d.events ++ [e] }

/-- Adds events to the log. -/
def logAll (es : List Event) : Flow Unit := modify fun d => { d with events := d.events ++ es }

/-- The session in its present state. -/
def session : Flow Session := do return (← get).session

/-- Changes the session. -/
def update (f : Session → Session) : Flow Unit := modify fun d => { d with session := f d.session }

/-- Draws from the generator. -/
def drawn {α : Type} (f : Generator → α × Generator) : Flow α :=
  modifyGet fun d => let (a, g) := f d.generator; (a, { d with generator := g })

/-- A result as work that changes nothing. -/
def ofResult {α : Type} : Except Fault α → Flow α
  | .ok a => pure a
  | .error e => throw e

/-- Fails unless authored indexes can be put in an order. -/
def demandComparable (l : List Value) : Flow Unit := ofResult (Questionnaire.demandComparable l)

/-- Fails unless something can be kept under ids. -/
def demandKeys (ids : List Id) : Flow Unit := ofResult (Questionnaire.demandKeys ids)

end Flow

end Questionnaire
