import Questionnaire.Flow
import Questionnaire.Survey.Lookup

/-!
# The roles of pages in batteries

A battery owns the pages from its start page to its end page. It is accepted if both exist, the
start comes first, and none of its pages belongs to a battery accepted before it; any other battery
is left out with a warning. So a page has at most one role.

Indexes that cannot be compared and ids under which nothing can be kept leave a survey without
roles (`RoleTable.announce`); all else here is defined for every survey.
-/

namespace Questionnaire

/-- What a page is to its battery. -/
inductive LoopRole
  | start
  | interior
  | finish
  deriving DecidableEq, Repr, Inhabited

/-- An accepted battery with the ids of its pages. -/
structure Stretch where
  battery : Battery
  pageIds : List Id
  deriving Inhabited

namespace Stretch

/-- The role of a page of the stretch. -/
def roleOf (s : Stretch) (pageId : Id) : LoopRole :=
  if pageId.agrees s.battery.startPageId then .start
  else if pageId.agrees s.battery.endPageId then .finish
  else .interior

end Stretch

/-- Whether a battery has its pages. -/
inductive RangeVerdict
  | accepted (pageIds : List Id)
  | invalid
  | taken (pageIds : List Id)
  deriving DecidableEq

namespace Survey

/-- The ids of the pages from a battery's start page to its end page, in order; none unless both
exist and the start comes first. -/
def batteryPages? (s : Survey) (b : Battery) : Option (List Id) :=
  match s.page? b.startPageId, s.page? b.endPageId with
  | some start, some finish =>
    if start.isBefore finish then some ((s.pagesBetween start finish).map Page.id)
    else none
  | _, _ => none

end Survey

/-- The accepted batteries of a survey. -/
structure RoleTable where
  stretches : List Stretch
  deriving Inhabited

namespace RoleTable

/-- The battery that owns the page with an id and the page's role in it. -/
def ownerOf? (t : RoleTable) (pageId : Id) : Option (Battery × LoopRole) :=
  (t.stretches.find? fun s => pageId.isAmong s.pageIds).map fun s => (s.battery, s.roleOf pageId)

/-- The battery that owns a page and the page's role in it; no page is none at all. -/
def roleOf? (t : RoleTable) (pageId : Id) : Option (Battery × LoopRole) :=
  pageId.given?.bind t.ownerOf?

/-- Whether a page is the start or the end of a battery. -/
def isBoundary (t : RoleTable) (pageId : Id) : Bool :=
  match t.ownerOf? pageId with
  | some (_, .start) | some (_, .finish) => true
  | _ => false

/-- The verdict on a battery next to those accepted before it. -/
def verdict (t : RoleTable) (s : Survey) (b : Battery) : RangeVerdict :=
  match s.batteryPages? b with
  | none => .invalid
  | some ids =>
    match ids.filter fun id => (t.ownerOf? id).isSome with
    | [] => .accepted ids
    | taken => .taken taken

/-- The table with a battery, if it is accepted. -/
def add (t : RoleTable) (s : Survey) (b : Battery) : RoleTable :=
  match t.verdict s b with
  | .accepted ids => ⟨t.stretches ++ [⟨b, ids⟩]⟩
  | _ => t

/-- The warning about a battery that is left out. -/
def eventsOf (t : RoleTable) (s : Survey) (b : Battery) : List Event :=
  match t.verdict s b with
  | .accepted _ => []
  | .invalid => [.rangeInvalid b.id]
  | .taken ids => [.pagesTaken b.id ids]

/-- The table with the accepted ones of a list of batteries, and the warnings about the others. -/
def addAll (s : Survey) : RoleTable → List Battery → RoleTable × List Event
  | t, [] => (t, [])
  | t, b :: r =>
    let (t', events) := addAll s (t.add s b) r
    (t', t.eventsOf s b ++ events)

/-- The role table of a survey, and the warnings about batteries that are left out. -/
def ofSurvey (s : Survey) : RoleTable × List Event := addAll s ⟨[]⟩ s.batteries

/-! ## What has no roles -/

/-- Fails unless there is a verdict on a battery that can be told: the indexes of its first and last
page must be comparable, something must be kept under the ids of its pages, and those that are taken
must be texts, since the warning names them. -/
def demandVerdict (t : RoleTable) (s : Survey) (b : Battery) : Except Fault Unit :=
  match s.page? b.startPageId, s.page? b.endPageId with
  | some start, some finish => do
    demandComparable [start.index, finish.index]
    demandKeys ((s.batteryPages? b).getD [])
    match t.verdict s b with
    | .taken ids => if ids.all Value.isText then .ok () else .error .wrongKind
    | _ => .ok ()
  | _, _ => .ok ()

/-- Warns of the batteries of a list that are left out, up to the first without a verdict. -/
def announceAll (s : Survey) : RoleTable → List Battery → Flow Unit
  | _, [] => pure ()
  | t, b :: r => do
    Flow.ofResult (t.demandVerdict s b)
    Flow.logAll (t.eventsOf s b)
    announceAll s (t.add s b) r

/-- Warns of the batteries of a survey that are left out. -/
def announce (s : Survey) : Flow Unit := do
  Flow.demandComparable (s.pages.map Page.index)
  announceAll s ⟨[]⟩ s.batteries

end RoleTable

end Questionnaire
