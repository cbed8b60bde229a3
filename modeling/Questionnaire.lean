import Questionnaire.Chance.Digest
import Questionnaire.Chance.Generator
import Questionnaire.Chance.Twister
import Questionnaire.Condition.Basic
import Questionnaire.Condition.Document
import Questionnaire.Condition.Open
import Questionnaire.Condition.Parser
import Questionnaire.Condition.Pieces
import Questionnaire.Condition.Token
import Questionnaire.Condition.Verdict
import Questionnaire.Dict
import Questionnaire.Document.Json.Printer
import Questionnaire.Document.Json.Reader
import Questionnaire.Document.Reading
import Questionnaire.Document.Yaml.Lexer
import Questionnaire.Document.Yaml.Node
import Questionnaire.Document.Yaml.Pattern
import Questionnaire.Document.Yaml.Printer
import Questionnaire.Document.Yaml.Scalar
import Questionnaire.Document.Yaml.Style
import Questionnaire.Document.Yaml.Token
import Questionnaire.Document.Yaml.Word
import Questionnaire.Event
import Questionnaire.Fault
import Questionnaire.Flow
import Questionnaire.Interview
import Questionnaire.Main
import Questionnaire.Number.Binary64
import Questionnaire.Number.Reading
import Questionnaire.Number.Shortest
import Questionnaire.Page.Carried
import Questionnaire.Page.Document
import Questionnaire.Page.Order
import Questionnaire.Page.Rendered
import Questionnaire.Page.Resolved
import Questionnaire.Page.Wording
import Questionnaire.Proofs.Condition.Balance
import Questionnaire.Proofs.Condition.Composing
import Questionnaire.Proofs.Condition.Forms
import Questionnaire.Proofs.Condition.Grammar
import Questionnaire.Proofs.Condition.Integers
import Questionnaire.Proofs.Condition.Levels
import Questionnaire.Proofs.Condition.Lexemes
import Questionnaire.Proofs.Condition.Lexing
import Questionnaire.Proofs.Condition.Open
import Questionnaire.Proofs.Condition.Pieces
import Questionnaire.Proofs.Condition.References
import Questionnaire.Proofs.Condition.Rendering
import Questionnaire.Proofs.Condition.Selecting
import Questionnaire.Proofs.Condition.Splitting
import Questionnaire.Proofs.Condition.Unknown
import Questionnaire.Proofs.Document.Json.Scalars
import Questionnaire.Proofs.Document.Json.Values
import Questionnaire.Proofs.Document.Reading
import Questionnaire.Proofs.Document.Session
import Questionnaire.Proofs.Document.Survey
import Questionnaire.Proofs.Flow
import Questionnaire.Proofs.Flow.Disregard
import Questionnaire.Proofs.Flow.Outcome
import Questionnaire.Proofs.Interview.Advancing
import Questionnaire.Proofs.Interview.Answers
import Questionnaire.Proofs.Interview.Candidates
import Questionnaire.Proofs.Interview.Consistency
import Questionnaire.Proofs.Interview.Duplicates
import Questionnaire.Proofs.Interview.Endings
import Questionnaire.Proofs.Interview.Faults
import Questionnaire.Proofs.Interview.Framing
import Questionnaire.Proofs.Interview.Hidden
import Questionnaire.Proofs.Interview.Isolation
import Questionnaire.Proofs.Interview.Keeping
import Questionnaire.Proofs.Interview.Leaving
import Questionnaire.Proofs.Interview.Mistakes
import Questionnaire.Proofs.Interview.Plans
import Questionnaire.Proofs.Interview.Position
import Questionnaire.Proofs.Interview.Reachable
import Questionnaire.Proofs.Interview.Redelivery
import Questionnaire.Proofs.Interview.Requests
import Questionnaire.Proofs.Interview.Runs
import Questionnaire.Proofs.Interview.Seen
import Questionnaire.Proofs.Interview.Views
import Questionnaire.Proofs.Log
import Questionnaire.Proofs.Number.Numeral
import Questionnaire.Proofs.Number.Range
import Questionnaire.Proofs.Number.Representable
import Questionnaire.Proofs.Number.Whole
import Questionnaire.Proofs.Page.Arranging
import Questionnaire.Proofs.Page.Assembly
import Questionnaire.Proofs.Page.Carrying
import Questionnaire.Proofs.Page.Completeness
import Questionnaire.Proofs.Page.Growth
import Questionnaire.Proofs.Page.Keys
import Questionnaire.Proofs.Page.Legible
import Questionnaire.Proofs.Page.LoopTokens
import Questionnaire.Proofs.Page.Mistakes
import Questionnaire.Proofs.Page.Piping
import Questionnaire.Proofs.Page.Portrait
import Questionnaire.Proofs.Page.Rendering
import Questionnaire.Proofs.Page.Settling
import Questionnaire.Proofs.Page.Shapes
import Questionnaire.Proofs.Page.Stability
import Questionnaire.Proofs.Page.Tokens
import Questionnaire.Proofs.Page.Visible
import Questionnaire.Proofs.Register
import Questionnaire.Proofs.Route.Arriving
import Questionnaire.Proofs.Route.Faults
import Questionnaire.Proofs.Route.Firing
import Questionnaire.Proofs.Route.Fitting
import Questionnaire.Proofs.Route.Iterating
import Questionnaire.Proofs.Route.Jumps
import Questionnaire.Proofs.Route.Keeping
import Questionnaire.Proofs.Route.Landing
import Questionnaire.Proofs.Route.Mistakes
import Questionnaire.Proofs.Route.Passing
import Questionnaire.Proofs.Route.Persistence
import Questionnaire.Proofs.Route.Progress
import Questionnaire.Proofs.Route.Rearriving
import Questionnaire.Proofs.Route.Restarting
import Questionnaire.Proofs.Route.Roles
import Questionnaire.Proofs.Route.Segments
import Questionnaire.Proofs.Route.Selections
import Questionnaire.Proofs.Route.Separation
import Questionnaire.Proofs.Route.Sourcing
import Questionnaire.Proofs.Route.Trail
import Questionnaire.Proofs.Route.Unchanged
import Questionnaire.Proofs.Route.Walk
import Questionnaire.Proofs.Route.WalkBack
import Questionnaire.Proofs.Session.Cursor
import Questionnaire.Proofs.Session.Percent
import Questionnaire.Proofs.Sorted
import Questionnaire.Proofs.Store.Clients
import Questionnaire.Proofs.Store.Interchange
import Questionnaire.Proofs.Store.Records
import Questionnaire.Proofs.Store.Slots
import Questionnaire.Proofs.Survey.Conditions
import Questionnaire.Proofs.Survey.Ownership
import Questionnaire.Proofs.Survey.Ranges
import Questionnaire.Record
import Questionnaire.Register
import Questionnaire.Route.Document
import Questionnaire.Route.Jump
import Questionnaire.Route.Navigator
import Questionnaire.Route.Planning
import Questionnaire.Route.Roles
import Questionnaire.Sample.BrandTracker
import Questionnaire.Sample.Walkthrough
import Questionnaire.Session.Basic
import Questionnaire.Session.Document
import Questionnaire.Session.Plan
import Questionnaire.Session.Store
import Questionnaire.Settings
import Questionnaire.Sorted
import Questionnaire.Survey.Audit
import Questionnaire.Survey.Basic
import Questionnaire.Survey.Document
import Questionnaire.Survey.Lookup
import Questionnaire.Text.Blank
import Questionnaire.Text.DecimalDigit
import Questionnaire.Text.Printable
import Questionnaire.Text.Quoted
import Questionnaire.Value.Agreement
import Questionnaire.Value.Basic
import Questionnaire.Value.Place
import Questionnaire.Value.Text
