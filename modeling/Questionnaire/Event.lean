import Questionnaire.Condition.Verdict

/-!
# Events

Operations leave a log for authors and operators. An event is what happened, with the names
involved; its level and wording are functions of it. Failures of conditions are warnings, or
details if the caller asked to be spared them (`quiet`).
-/

namespace Questionnaire

/-- How much attention an event deserves. -/
inductive Level
  | debug
  | info
  | warning
  deriving DecidableEq, Repr, Inhabited

/-- Levels in increasing order. -/
def Level.rank : Level → Nat
  | .debug => 0
  | .info => 1
  | .warning => 2

/-- The level of a failure of a condition. -/
def Level.ofFailure (quiet : Bool) : Level := if quiet then .debug else .warning

/-- What happened. -/
inductive Event
  /- Conditions -/
  | conditionFailedOpen (quiet : Bool) (text : String) (why : Condition.Failure)
  | conditionJudged (text : String) (verdict : Bool)
  /- Orders -/
  | unknownOrderMode (mode : Value)
  | orderReused (key : String)
  /- Jumps -/
  | conditionDidNotFire (quiet : Bool) (owner text : String) (why : Condition.Failure)
  | destinationMissing (quiet : Bool) (ruleId : Id) (destination : Destination)
  | questionTerminated (questionId criterionId : Id)
  /- Loop plans -/
  | sourceMissing (batteryId : Id)
  | sourceNotMultiSelect (batteryId questionId : Id)
  | plannedNothing (batteryId : Id)
  | planned (batteryId : Id) (items : Nat)
  /- Navigation -/
  | rangeInvalid (batteryId : Id)
  | pagesTaken (batteryId : Id) (pageIds : List Id)
  | batterySkipped (batteryId : Id)
  | iterationStarted (batteryId : Id) (number : Value) (total : Nat)
  | batteryComplete (batteryId : Id)
  | batteryLeft (batteryId : Id)
  | batteryReset (batteryId : Id)
  | itemStale (batteryId key : Id)
  /- Carried choices -/
  | carrySourceMissing (questionId sourceId : Id)
  /- The store -/
  | staleWrite (sessionId : Id) (version stored : Value)
  /- Sessions -/
  | sessionStarted (sessionId : Id) (page : Option Id)
  | completedByRule (sessionId ruleId : Id)
  | jumped (sessionId : Id) (page ruleId : Id)
  | sessionTerminated (sessionId : Id) (criterionId reason : Value)
  | navigationIgnored (fromPage sessionId : Id) (current : Option Id)
  | sessionCompleted (sessionId : Id)

namespace Event

/-- The attention that an event deserves. -/
def level : Event → Level
  | .conditionFailedOpen quiet .. | .conditionDidNotFire quiet .. | .destinationMissing quiet .. =>
    .ofFailure quiet
  | .conditionJudged .. | .orderReused _ => .debug
  | .unknownOrderMode _ | .sourceMissing _ | .sourceNotMultiSelect .. | .rangeInvalid _
  | .pagesTaken .. | .carrySourceMissing .. | .staleWrite .. | .navigationIgnored .. => .warning
  | .questionTerminated .. | .plannedNothing _ | .planned .. | .batterySkipped _
  | .iterationStarted .. | .batteryComplete _ | .batteryLeft _ | .batteryReset _ | .itemStale ..
  | .sessionStarted .. | .completedByRule .. | .jumped .. | .sessionTerminated ..
  | .sessionCompleted _ => .info

/-- The text for a page that may be missing. -/
def orNone (page : Option Id) : String := (Value.orNull page).display

/-- The wording of an event. -/
def message : Event → String
  | .conditionFailedOpen _ text why =>
    "Expression " ++ Text.quoted text ++ " failed open: " ++ why.message
  | .conditionJudged text verdict =>
    "Expression " ++ Text.quoted text ++ " evaluated to " ++ (Value.bool verdict).quoted
  | .unknownOrderMode mode => "Unknown order mode " ++ mode.quoted ++ ", using SEQUENTIAL"
  | .orderReused key => "Order cache hit for " ++ key
  | .conditionDidNotFire _ owner text why =>
    owner ++ " condition " ++ Text.quoted text ++ " did not fire: " ++ why.message
  | .destinationMissing _ ruleId destination =>
    "Jump rule " ++ ruleId.display ++ " points at missing " ++ destination.kind.word ++ " " ++
      destination.target.display
  | .questionTerminated questionId criterionId =>
    "Question " ++ questionId.display ++ " terminated the survey (" ++ criterionId.display ++ ")"
  | .sourceMissing batteryId =>
    "Loop battery " ++ batteryId.display ++ " has no resolvable source question"
  | .sourceNotMultiSelect batteryId questionId =>
    "Loop battery " ++ batteryId.display ++ " sources from non multi-select question " ++
      questionId.display
  | .plannedNothing batteryId => "Loop battery " ++ batteryId.display ++ " planned zero items"
  | .planned batteryId items =>
    "Loop battery " ++ batteryId.display ++ " planned " ++ toString items ++ " items"
  | .rangeInvalid batteryId =>
    "Ignoring loop battery " ++ batteryId.display ++ " with an invalid page range"
  | .pagesTaken batteryId pageIds =>
    "Ignoring loop battery " ++ batteryId.display ++ ": pages " ++
      ", ".intercalate (pageIds.map Value.display) ++ " already belong to another battery"
  | .batterySkipped batteryId =>
    "Skipping loop battery " ++ batteryId.display ++ ": nothing to iterate"
  | .iterationStarted batteryId number total =>
    "Loop battery " ++ batteryId.display ++ " advanced to item " ++ number.display ++ " of " ++
      toString total
  | .batteryComplete batteryId => "Loop battery " ++ batteryId.display ++ " complete"
  | .batteryLeft batteryId => "Loop battery " ++ batteryId.display ++ " complete: left by a jump"
  | .batteryReset batteryId =>
    "Loop battery " ++ batteryId.display ++ " reset: source answer changed"
  | .itemStale batteryId key =>
    "Loop battery " ++ batteryId.display ++ ": item " ++ key.display ++ " is stale, skipping"
  | .carrySourceMissing questionId sourceId =>
    "Question " ++ questionId.display ++ " carries forward from missing question " ++
      sourceId.display
  | .staleWrite sessionId version stored =>
    "Rejected stale write to session " ++ sessionId.display ++ " (version " ++
      toString version.wholePart ++ ", stored " ++ toString stored.wholePart ++ ")"
  | .sessionStarted sessionId page =>
    "Session " ++ sessionId.display ++ " started on page " ++ orNone page
  | .completedByRule sessionId ruleId =>
    "Session " ++ sessionId.display ++ " completed by jump rule " ++ ruleId.display
  | .jumped sessionId page ruleId =>
    "Session " ++ sessionId.display ++ " jumped to page " ++ page.display ++ " by rule " ++
      ruleId.display
  | .sessionTerminated sessionId criterionId reason =>
    "Session " ++ sessionId.display ++ " terminated by " ++ criterionId.display ++ ": " ++
      reason.display
  | .navigationIgnored fromPage sessionId current =>
    "Ignoring navigation from page " ++ fromPage.display ++ ": session " ++ sessionId.display ++
      " is on page " ++ orNone current
  | .sessionCompleted sessionId => "Session " ++ sessionId.display ++ " completed"

end Event

end Questionnaire
