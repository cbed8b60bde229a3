import Questionnaire.Page.Rendered
import Questionnaire.Route.Jump
import Questionnaire.Route.Navigator
import Questionnaire.Session.Store
import Questionnaire.Settings

/-!
# Interviews

An interview conducts the sessions of one survey. Every request is one transaction: the session is
loaded, work is done on the loaded copy, and the copy is stored if the work changed it and no other
request was faster (`Interview.transact`). A request that fails changes nothing.

Leaving a page forward is decided in this order: another iteration of the battery that ends on the
page; the terminations and jump rules of the questions that the respondent saw and answered there;
the jump rules of the page; the next page that is shown.
-/

namespace Questionnaire

/-- The interviews of a survey. Without a seed, every request draws from `unseeded`. -/
structure Interview where
  survey : Survey
  settings : Settings
  unseeded : Generator

/-- The result of work on a session: the answer to the request, and whether to store the session. -/
structure Decision (α : Type) where
  reply : α
  commit : Bool
  deriving DecidableEq

/-- What a request leads to: its reply, the store after it and the log. -/
structure Served (α : Type) where
  reply : Except Fault α
  store : Store
  events : List Event

namespace Interview

variable (iv : Interview)

/-- Failures of conditions are details rather than warnings. -/
def quiet : Bool := !iv.settings.logFailures

/-- The text that seeds a request's generator: the seed, the session and its version. -/
def seedText (seed : Int) (s : Session) : String :=
  toString seed ++ ":" ++ s.id.display ++ ":" ++ s.version.display

/-- The generator of a request on a session. -/
def generatorFor (s : Session) : Generator :=
  match iv.settings.randomSeed with
  | some seed => .ofText (seedText seed s)
  | none => iv.unseeded

/-- The navigator of the survey. -/
def navigator : Navigator := .ofSurvey iv.survey iv.settings.skipHidden iv.quiet

/-! ## Where a session is -/

/-- The position of a session that has ended. -/
def endedPosition (s : Session) : Landing :=
  ⟨none, none, true, s.isTerminated, s.terminationReason⟩

/-- The current position. -/
def position : Flow Landing := do
  let s ← Flow.session
  if s.isCompleted then pure (endedPosition s)
  else
    match s.currentPage with
    | none => pure (endedPosition s)
    | some page =>
      iv.navigator.announce
      pure (.on page (← iv.navigator.iterationOf page))

/-- Puts the session where navigation leads. -/
def settle (landing : Landing) : Flow Unit := do
  if landing.completed then
    Flow.update fun s => { s with completed := .bool true, currentPage := none }
    Flow.log (.sessionCompleted (← Flow.session).id)
  else Flow.update fun s => s.moveTo landing.pageId

/-- Whether a navigation request names another page than the current one. -/
def isDuplicate (s : Session) (fromPage : Option Id) : Bool :=
  match fromPage with
  | none => false
  | some page => !s.currentPage.any page.equal

/-- Warns of a navigation request that names another page than the current one. -/
def warnOfDuplicate (s : Session) (fromPage : Option Id) : Flow Unit :=
  match fromPage with
  | none => pure ()
  | some page => Flow.log (.navigationIgnored page s.id s.currentPage)

/-! ## Work on a loaded session -/

/-- The group that hides or shows a question on a page: its own group, if that is on the page. -/
def groupOnPage? (q : Question) (pageId : Id) : Option Group :=
  if q.groupId.isTruthy then (iv.survey.group? q.groupId).filter fun g => g.pageId.equal pageId
  else none

/-- Whether the respondent could see a question on a page. -/
def couldSee (pageId : Id) (q : Question) : Flow Bool := do
  let ctx := (← Flow.session).context iv.survey
  let groupShown ← match iv.groupOnPage? q pageId with
    | none => pure true
    | some g => ctx.shows iv.quiet g.visibleIf
  if groupShown then ctx.shows iv.quiet q.visibleIf else pure false

/-- The questions of a page that the respondent could see and answered, in authored order. -/
def answeredQuestions (pageId : Id) : Flow (List Question) := do
  let s ← Flow.session
  let onPage := iv.survey.questionsOnPage pageId
  Flow.demandComparable (onPage.map Question.index)
  let sawAndAnswered (q : Question) : Flow Bool := do
    Flow.demandKeys [q.id]
    if s.responses.contains q.id then iv.couldSee pageId q else pure false
  Renderer.keep sawAndAnswered onPage

/-- The first outcome of the answers to a list of questions. -/
def firstOutcome : List Question → Flow (Option JumpOutcome)
  | [] => pure none
  | q :: r => do
    match ← Jump.ofAnswer iv.survey iv.quiet q.id with
    | some o => pure (some o)
    | none => firstOutcome r

/-- The jump that leaving a page triggers. -/
def jumpOnLeaving (pageId : Id) : Flow (Option JumpOutcome) := do
  match ← iv.firstOutcome (← iv.answeredQuestions pageId) with
  | some o => pure (some o)
  | none => Jump.ofPage iv.survey iv.quiet pageId

/-- Ends the session by an answer. -/
def terminate (outcome : JumpOutcome) : Flow Unit := do
  let s ← Flow.session
  Flow.log (.sessionTerminated s.id outcome.ruleId (.orNull outcome.terminationReason))
  Flow.update fun s =>
    { s with completed := .bool true, terminated := .bool true,
             terminationReason := outcome.terminationReason }

/-- Leaves a page by a jump. The log names the session as the request does. -/
def follow (id : Id) (outcome : JumpOutcome) : Flow Landing := do
  if outcome.terminates then
    terminate outcome
    iv.position
  else
    match outcome.pageId with
    | some page =>
      Flow.log (.jumped id page outcome.ruleId)
      iv.navigator.arrive (some page)
    | none =>
      Flow.log (.completedByRule id outcome.ruleId)
      pure .finished

/-- Where leaving a page forward leads. -/
def leave (id page : Id) : Flow Landing := do
  iv.navigator.announce
  if ← iv.navigator.continuesLoop page then iv.navigator.nextPage page
  else
    match ← iv.jumpOnLeaving page with
    | none => iv.navigator.nextPage page
    | some outcome =>
      let _ ← iv.navigator.closeIteration page
      iv.follow id outcome

/-- Places a new session on its first page. -/
def begin : Flow Unit := do
  iv.navigator.announce
  settle (← iv.navigator.firstPage)
  let s ← Flow.session
  Flow.log (.sessionStarted s.id s.currentPage)

/-- Tells where the session is. -/
def locate : Flow (Decision Landing) := do
  pure ⟨← iv.position, false⟩

/-- Leaves the current page forward. A request to leave another page than the current one, and any
request once the session has ended, is answered by the position. -/
def forward (id : Id) (fromPage : Option Id) : Flow (Decision Landing) := do
  let s ← Flow.session
  if isDuplicate s fromPage then
    warnOfDuplicate s fromPage
    iv.locate
  else
    match s.isCompleted, s.currentPage with
    | false, some page =>
      let landing ← iv.leave id page
      settle landing
      pure ⟨landing, true⟩
    | _, _ => iv.locate

/-- Leaves the current page backward; before the first page nothing changes. -/
def backward (fromPage : Option Id) : Flow (Decision Landing) := do
  let s ← Flow.session
  if isDuplicate s fromPage then
    warnOfDuplicate s fromPage
    iv.locate
  else
    match s.isCompleted, s.currentPage with
    | false, some page =>
      iv.navigator.announce
      let landing ← iv.navigator.previousPage page
      match landing.pageId with
      | none => pure ⟨landing, false⟩
      | some p =>
        Flow.update fun s => s.moveTo (some p)
        pure ⟨landing, true⟩
    | _, _ => iv.locate

/-- Records an answer: the jump that it triggers. A changed answer drops the plans made from it. -/
def record (id questionId : Id) (answer : Value) : Flow (Decision (Option JumpOutcome)) := do
  Flow.demandKeys [questionId]
  let s ← Flow.session
  Flow.update fun s => s.respond questionId answer
  if answerChanged (s.response questionId) answer then
    iv.navigator.announce
    let _ ← iv.navigator.resetLoops questionId
  let outcome ← Jump.ofAnswer iv.survey iv.quiet questionId
  match outcome with
  | none => pure ()
  | some o =>
    if o.terminates then terminate o
    else if o.endsSurvey then
      Flow.log (.completedByRule id o.ruleId)
      Flow.update fun s => { s with completed := .bool true }
  pure ⟨outcome, true⟩

/-- The page that a request to render means: the one it names, or the current one. -/
def pageToRender? (s : Session) (page : Option Id) : Option Id :=
  (page.filter Value.isTruthy).or s.currentPage

/-- Renders a page. The session is stored only if an order was drawn. -/
def render (id : Id) (page : Option Id) : Flow (Decision RenderedPage) := do
  let before ← Flow.session
  match pageToRender? before page with
  | none => throw (.noCurrentPage id)
  | some page =>
    iv.navigator.announce
    let iteration ← iv.navigator.iterationOf page
    let rendered ← Renderer.page ⟨iv.survey, iteration, iv.settings.weighting, iv.quiet⟩ page
    let after ← Flow.session
    pure ⟨rendered, decide (after.orders ≠ before.orders)⟩

/-- Tells how far a battery has come. -/
def report (batteryId : Id) : Flow (Decision (Option Progress)) := do
  iv.navigator.announce
  pure ⟨← Navigator.progress batteryId, false⟩

/-! ## Requests -/

/-- Does work on a session. -/
def perform {α : Type} (work : Flow α) (s : Session) : Except Fault α × Desk :=
  work.perform ⟨s, iv.generatorFor s, []⟩

/-- Stores what work on a session led to, if it is to be stored. -/
def conclude {α : Type} (store : Store) (result : Except Fault (Decision α) × Desk) : Served α :=
  match result with
  | (.error e, desk) => ⟨.error e, store, desk.events⟩
  | (.ok decision, desk) =>
    if decision.commit then
      let events := desk.events ++ store.saveEvents desk.session
      match store.save desk.session with
      | .ok (_, after) => ⟨.ok decision.reply, after, events⟩
      | .error e => ⟨.error e, store, events⟩
    else ⟨.ok decision.reply, store, desk.events⟩

/-- A request: loads a session, works on it and stores the result. `meanwhile` is what other
requests do to the store after the session was loaded. -/
def transact {α : Type} (store : Store) (id : Id) (work : Flow (Decision α))
    (meanwhile : Store → Store) : Served α :=
  match store.load id with
  | .error e => ⟨.error e, store, []⟩
  | .ok s => conclude (meanwhile store) (iv.perform work s)

/-- No other request comes in between. -/
def undisturbed (store : Store) : Store := store

/-- Starts a session on the first page that is shown. -/
def start (store : Store) (id : Id) (embedded : Register Value) : Served Session :=
  match iv.perform iv.begin (.new id iv.survey.id embedded) with
  | (.error e, desk) => ⟨.error e, store, desk.events⟩
  | (.ok _, desk) =>
    match store.create desk.session with
    | .ok (s, after) => ⟨.ok s, after, desk.events⟩
    | .error e => ⟨.error e, store, desk.events⟩

/-- The current position of a session. -/
def currentPosition (store : Store) (id : Id) : Served Landing :=
  iv.transact store id iv.locate undisturbed

/-- Leaves the current page of a session forward. -/
def nextPage (store : Store) (id : Id) (fromPage : Option Id) : Served Landing :=
  iv.transact store id (iv.forward id fromPage) undisturbed

/-- Leaves the current page of a session backward. -/
def previousPage (store : Store) (id : Id) (fromPage : Option Id) : Served Landing :=
  iv.transact store id (iv.backward fromPage) undisturbed

/-- Records the answer to a question, which must be one of the survey. -/
def submitAnswerDuring (store : Store) (id questionId : Id) (answer : Value)
    (meanwhile : Store → Store) : Served (Option JumpOutcome) :=
  match iv.survey.question? questionId with
  | none => ⟨.error (.unknownQuestion questionId), store, []⟩
  | some _ => iv.transact store id (iv.record id questionId answer) meanwhile

/-- Records the answer to a question. -/
def submitAnswer (store : Store) (id questionId : Id) (answer : Value) :
    Served (Option JumpOutcome) :=
  iv.submitAnswerDuring store id questionId answer undisturbed

/-- Renders a page of a session. -/
def renderPage (store : Store) (id : Id) (page : Option Id) : Served RenderedPage :=
  iv.transact store id (iv.render id page) undisturbed

/-- How far a battery of a session has come. -/
def loopProgress (store : Store) (id : Id) (batteryId : Id) : Served (Option Progress) :=
  iv.transact store id (iv.report batteryId) undisturbed

end Interview

end Questionnaire
