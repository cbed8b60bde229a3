import Questionnaire.Condition.Open
import Questionnaire.Route.Planning
import Questionnaire.Route.Roles

/-!
# Navigation

Pages are visited in the order of their indexes; hidden ones are passed over. A battery's pages are
visited once per item of its plan: arriving at the start page makes the plan if there is none,
leaving the end page moves the cursor and goes back to the start page, and stepping back from the
start page moves the cursor back and goes to the end page. Items that are no longer among the
battery's source items are passed over when moving forward. A battery without items is passed over
as a whole.

The pages at the ends of a battery are never hidden, so that its plan is always met.
-/

namespace Questionnaire

/-- Where a respondent gets: a page with its iteration, or nowhere. Moving forward past the last
page completes the survey. -/
structure Landing where
  pageId : Option Id
  iteration : Option Iteration
  completed : Bool
  terminated : Bool
  terminationReason : Option Value
  deriving DecidableEq, Inhabited

namespace Landing

/-- On a page. -/
def on (pageId : Id) (iteration : Option Iteration) : Landing :=
  ⟨pageId.given?, iteration, false, false, none⟩

/-- Past the last page. -/
def finished : Landing := ⟨none, none, true, false, none⟩

/-- Before the first page. -/
def nowhere : Landing := ⟨none, none, false, false, none⟩

end Landing

/-- How far a battery has come. -/
structure Progress where
  batteryId : Id
  number : Value
  total : Value
  percent : Binary64
  item : LoopItem
  isFirst : Bool
  isLast : Bool
  isComplete : Bool

/-- What navigation needs besides the desk. -/
structure Navigator where
  survey : Survey
  pages : List Page
  roles : RoleTable
  skipHidden : Bool
  quiet : Bool

namespace Navigator

/-- The navigator of a survey. -/
def ofSurvey (survey : Survey) (skipHidden quiet : Bool) : Navigator :=
  ⟨survey, survey.pagesInOrder, (RoleTable.ofSurvey survey).1, skipHidden, quiet⟩

/-- The last page with an id, with the pages before it and after it. -/
def aroundLast? (id : Id) : List Page → Option (List Page × Page × List Page)
  | [] => none
  | p :: r =>
    match aroundLast? id r with
    | some (before, q, after) => some (p :: before, q, after)
    | none => if p.id.agrees id then some ([], p, r) else none

variable (nav : Navigator)

/-! ## The order of pages -/

/-- Fails unless the survey can be navigated: its pages must have an order and ids under which
something can be kept. Warns of the batteries that are left out. -/
def announce : Flow Unit := do
  Flow.demandComparable (nav.survey.pages.map Page.index)
  Flow.demandKeys (nav.survey.pages.map Page.id)
  RoleTable.announce nav.survey

/-- The page with an id, with the pages before it and after it. -/
def around (id : Id) : Flow (List Page × Page × List Page) := do
  Flow.demandKeys [id]
  match aroundLast? id nav.pages with
  | some x => pure x
  | none => throw (.unknownPage id)

/-- Whether a page is shown to the respondent. -/
def isShown (id : Id) : Flow Bool := do
  if !nav.skipHidden || nav.roles.isBoundary id then pure true
  else
    let (_, page, _) ← nav.around id
    ((← Flow.session).context nav.survey).shows nav.quiet page.visibleIf

/-- The first page of a list that is shown. -/
def firstShown : List Page → Flow (Option Id)
  | [] => pure none
  | p :: r => do if ← nav.isShown p.id then pure p.id.given? else firstShown r

/-- The next page that is shown. -/
def nextInOrder (id : Id) : Flow (Option Id) := do
  let (_, _, after) ← nav.around id
  nav.firstShown after

/-- The previous page that is shown. -/
def previousInOrder (id : Id) : Flow (Option Id) := do
  let (before, _, _) ← nav.around id
  nav.firstShown before.reverse

/-! ## Plans -/

/-- The battery that owns a page and the page's role in it. -/
def roleOf (id : Id) : Flow (Option (Battery × LoopRole)) := do
  Flow.demandKeys [id]
  pure (nav.roles.roleOf? id)

/-- The plan of the battery with an id. -/
def planOf (batteryId : Id) : Flow (Option LoopPlan) := do
  Flow.demandKeys [batteryId]
  return (← Flow.session).plan? batteryId

/-- The iteration for which a page is shown. -/
def iterationOf (id : Id) : Flow (Option Iteration) := do
  match ← nav.roleOf id with
  | none => pure none
  | some (b, _) =>
    match ← planOf b.id with
    | none => pure none
    | some p => Flow.ofResult p.iteration

/-- Moves the cursor of a battery's plan over stale items. -/
def skipStale (b : Battery) (p : LoopPlan) : Flow LoopPlan := do
  if ← Flow.ofResult p.isComplete then pure p
  else
    let responses := (← Flow.session).responses
    Flow.logAll (Planning.sourceEvents b nav.survey)
    Flow.ofResult (Planning.demandListable b nav.survey responses)
    let live := (Planning.sourceItems b nav.survey responses).map LoopItem.key
    Flow.demandKeys live
    let passage := p.passage live
    let p := { p with cursor := passage.cursor }
    Flow.logAll (passage.passed.map (.itemStale b.id))
    Flow.update fun s => s.setPlan b.id p
    match passage.fault with
    | none => pure p
    | some e => throw e

/-- The plan of a battery on arrival, made if there is none, and whether it was complete before. -/
def enter (b : Battery) : Flow (LoopPlan × Bool) := do
  match ← planOf b.id with
  | some p =>
    let wasComplete ← Flow.ofResult p.isComplete
    let q ← nav.skipStale b p
    pure (q, wasComplete)
  | none =>
    let p ← Planning.newPlan b nav.survey (← Flow.session).responses
    let p := p.getD (.skipped b.id)
    Flow.update fun s => s.setPlan b.id p
    pure (p, false)

/-! ## Moving forward -/

/-- Arrives at a page, or at the next one that has something to show; `fuel` bounds the number of
batteries passed over. -/
def arriveWithin : Nat → Option Id → Flow Landing
  | _, none => pure .finished
  | 0, some _ => throw .endlessLoop
  | fuel + 1, some id => do
    match ← nav.roleOf id with
    | some (b, .start) =>
      let (p, wasComplete) ← nav.enter b
      if !p.items.isEmpty && (wasComplete || !(← Flow.ofResult p.isComplete)) then
        pure (.on id (← Flow.ofResult p.iteration))
      else
        Flow.log (.batterySkipped b.id)
        arriveWithin fuel (← nav.nextInOrder b.endPageId)
    | _ => pure (.on id (← nav.iterationOf id))

/-- Arrives at a page. A battery that is passed over a second time has no items and changes nothing,
so twice the number of pages is fuel enough. -/
def arrive (id : Option Id) : Flow Landing := nav.arriveWithin (2 * (nav.pages.length + 1)) id

/-- Arrives at the first page. -/
def firstPage : Flow Landing := do
  match nav.pages with
  | [] => pure .finished
  | p :: _ =>
    if ← nav.isShown p.id then nav.arrive p.id.given?
    else nav.arrive (← nav.nextInOrder p.id)

/-- Starts the next iteration if the page is the end of a battery that iterates: where that leads,
if it does. -/
def continueLoop (id : Id) : Flow (Option Landing) := do
  match ← nav.roleOf id with
  | some (b, .finish) =>
    match ← planOf b.id with
    | none => pure none
    | some p =>
      if ← Flow.ofResult p.isComplete then pure none
      else
        let p ← Flow.ofResult p.advance
        Flow.update fun s => s.setPlan b.id p
        let p ← nav.skipStale b p
        if ← Flow.ofResult p.isComplete then
          Flow.log (.batteryComplete b.id)
          pure none
        else
          Flow.log (.iterationStarted b.id (p.cursor.shifted 1) p.items.length)
          pure (some (.on b.startPageId (← Flow.ofResult p.iteration)))
  | _ => pure none

/-- Leaves a page forward. -/
def nextPage (id : Id) : Flow Landing := do
  let _ ← nav.around id
  match ← nav.continueLoop id with
  | some landing => pure landing
  | none => nav.arrive (← nav.nextInOrder id)

/-! ## Moving backward -/

/-- Arrives at a page from behind, or at the page before a battery without items; `fuel` bounds the
number of batteries passed over. -/
def arriveBackWithin : Nat → Option Id → Flow Landing
  | _, none => pure .nowhere
  | 0, some _ => throw .endlessLoop
  | fuel + 1, some id => do
    match ← nav.roleOf id with
    | none => pure (.on id none)
    | some (b, _) =>
      match ← planOf b.id with
      | some p =>
        if p.items.isEmpty then arriveBackWithin fuel (← nav.previousInOrder b.startPageId)
        else pure (.on id (← Flow.ofResult p.iteration))
      | none => arriveBackWithin fuel (← nav.previousInOrder b.startPageId)

/-- Arrives at a page from behind. -/
def arriveBack (id : Option Id) : Flow Landing :=
  nav.arriveBackWithin (nav.pages.length + 1) id

/-- Steps back to the previous iteration if the page is the start of a battery past its first item:
where that leads, if it does. -/
def stepBack (id : Id) : Flow (Option Landing) := do
  match ← nav.roleOf id with
  | some (b, .start) =>
    match ← planOf b.id with
    | none => pure none
    | some p =>
      match ← Flow.ofResult p.rewind with
      | none => pure none
      | some p =>
        Flow.update fun s => s.setPlan b.id p
        pure (some (.on b.endPageId (← Flow.ofResult p.iteration)))
  | _ => pure none

/-- Leaves a page backward. -/
def previousPage (id : Id) : Flow Landing := do
  let _ ← nav.around id
  match ← nav.stepBack id with
  | some landing => pure landing
  | none => nav.arriveBack (← nav.previousInOrder id)

/-! ## Loops -/

/-- Whether leaving a page would start another iteration. -/
def continuesLoop (id : Id) : Flow Bool := do
  match ← nav.roleOf id with
  | some (b, .finish) =>
    match ← planOf b.id with
    | some p => Flow.ofResult p.hasNext
    | none => pure false
  | _ => pure false

/-- Completes the plan of a battery whose end page is left by a jump: whether there was one to
complete. -/
def closeIteration (id : Id) : Flow Bool := do
  match ← nav.roleOf id with
  | some (b, .finish) =>
    match ← planOf b.id with
    | none => pure false
    | some p =>
      if ← Flow.ofResult p.isComplete then pure false
      else
        Flow.update fun s => s.setPlan b.id p.close
        Flow.log (.batteryLeft b.id)
        pure true
  | _ => pure false

/-- Drops the plans of the batteries in a list: the ids of those that had one. While there are no
plans at all, any id will do. -/
def resetAll : List Battery → Flow (List Id)
  | [] => pure []
  | b :: r => do
    let s ← Flow.session
    unless s.plans.isEmpty do Flow.demandKeys [b.id]
    if (s.plan? b.id).isSome then
      Flow.update fun s => s.dropPlan b.id
      Flow.log (.batteryReset b.id)
      let rest ← resetAll r
      pure (b.id :: rest)
    else resetAll r

/-- Drops the plans made from the answer to a question: the ids of the batteries that had one. -/
def resetLoops (questionId : Id) : Flow (List Id) :=
  resetAll (nav.survey.batteriesSourcedFrom questionId)

/-- How far a battery has come with a plan; none if the plan has no items. -/
def progressOf (batteryId : Id) (p : LoopPlan) : Except Fault (Option Progress) := do
  match ← p.iteration with
  | none => .ok none
  | some i =>
    .ok <| some
      { batteryId := batteryId, number := ← i.number, total := i.total, percent := ← i.percent,
        item := i.item, isFirst := i.isFirst, isLast := ← i.isLast,
        isComplete := ← p.isComplete }

/-- How far the battery with an id has come; none if it has no plan with items. -/
def progress (batteryId : Id) : Flow (Option Progress) := do
  match ← planOf batteryId with
  | none => pure none
  | some p => Flow.ofResult (progressOf batteryId p)

end Navigator

/-- Whether an answer differs from the one before. Lists differ when the texts of their elements
do, in whatever order they stand. -/
def answerChanged (before after : Value) : Bool :=
  match before, after with
  | .list xs, .list ys => sortedTexts (xs.map Value.display) != sortedTexts (ys.map Value.display)
  | v, w => !v.equal w

end Questionnaire
