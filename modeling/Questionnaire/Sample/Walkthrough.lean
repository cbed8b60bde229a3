import Questionnaire.Document.Yaml.Printer
import Questionnaire.Interview
import Questionnaire.Sample.BrandTracker
import Questionnaire.Survey.Audit

/-!
# A walk through the brand tracker

One respondent answers the screener of the sample survey and visits every page. The lines tell what
the audit found, what was shown on each page, and what is stored in the end.
-/

namespace Questionnaire.Sample.Walkthrough

/-- The survey that is walked through. -/
def survey : Survey := BrandTracker.survey (.int 2)

/-- The interview, with a seed that makes every walk the same. -/
def interview : Interview :=
  ⟨survey, { Settings.default with randomSeed := some 42 }, .ofScript [0]⟩

/-- The respondent's session. -/
def sessionId : Id := .text "demo"

/-- A line across the page. -/
def rule (c : Char) : String := String.ofList (List.replicate 80 c)

/-- Requests to a store, one after the other. -/
abbrev Visit := StateT Store (Except Fault)

/-- Makes a request. -/
def request {α : Type} (served : Store → Served α) : Visit α := do
  let s := served (← get)
  set s.store
  match s.reply with
  | .ok a => pure a
  | .error e => throw e

/-- The lines about the survey. -/
def auditLines (r : Report) : List String :=
  ["   ✓ Survey: " ++ survey.name.display,
    "   ✓ Pages: " ++ toString r.pages,
    "   ✓ Expressions: " ++ toString r.expressions,
    "   ✓ Loop batteries: " ++ toString r.batteries,
    "   ✓ Warnings: " ++ toString r.warnings.length]

/-- The lines about a page. -/
def pageLines (page : RenderedPage) : List String :=
  ["", "   [" ++ page.pageId.display ++ "] " ++ page.title] ++
    page.questions.flatMap fun q =>
      ("      - " ++ q.text) :: q.choices.map fun c => "          ( ) " ++ c.label

/-- The line about a loop. -/
def loopLine (p : Progress) : String :=
  "      loop " ++ p.number.display ++ "/" ++ p.total.display

/-- The lines about the loop of a position. -/
def loopLines (l : Landing) : Visit (List String) :=
  match l.iteration with
  | none => pure []
  | some i => do
    let progress ← request fun store => interview.loopProgress store sessionId i.batteryId
    pure (progress.map loopLine).toList

/-- The lines about the pages from a position on; `limit` bounds their number. -/
def walk : Nat → Landing → Visit (List String)
  | 0, _ => pure []
  | limit + 1, l =>
    if l.completed then pure []
    else do
      let page ← request fun store => interview.renderPage store sessionId none
      let loop ← loopLines l
      let next ← request fun store => interview.nextPage store sessionId (some page.pageId)
      return pageLines page ++ loop ++ (← walk limit next)

/-- Starts the session and answers the screener: the lines about that. -/
def screener : Visit (List String) := do
  let embedded := Register.ofTexts (Dict.ofList [("panel", Value.text "uk")])
  let s ← request fun store => interview.start store sessionId embedded
  let _ ← request fun store => interview.submitAnswer store sessionId (.text "q_age") (.int 34)
  let _ ← request fun store =>
    interview.submitAnswer store sessionId (.text "q_aware") (.list [.text "puma", .text "nike"])
  pure ["   ✓ Session " ++ s.id.display ++ " on page " ++ (Value.orNull s.currentPage).display,
    "   ✓ Answered AGE=34, AWARE=[puma, nike]"]

/-- The lines of a text, without the empty one after the last line end. -/
def textLines (text : String) : List String :=
  ((text.splitOn "\n").reverse.dropWhile (· == "")).reverse

/-- The lines about the stored session. -/
def storedLines (s : Session) : List String :=
  (textLines (Yaml.print s.toDocument)).map fun l => "   " ++ l

/-- The lines of the walk. -/
def visit : Visit (List String) := do
  let started ← screener
  let l ← request fun store => interview.currentPosition store sessionId
  let pages ← walk 100 l
  let s ← liftM ((← get).load sessionId)
  return [rule '=', "RESPONDENT WALKTHROUGH DEMO", rule '=', "", "1. VALIDATING SURVEY..."] ++
    auditLines survey.audit ++ ["", "2. STARTING SESSION..."] ++ started ++
    ["", "3. WALKING PAGES...", rule '-'] ++ pages ++
    ["", "4. SESSION STATE (YAML):", rule '-'] ++ storedLines s ++
    ["", rule '=', "✓ DEMO COMPLETE: " ++ toString s.history.length ++ " pages visited", rule '=']

/-- The lines of the walk, from an empty store. -/
def lines : Except Fault (List String) := (visit.run .emptyMemory).map Prod.fst

end Questionnaire.Sample.Walkthrough
