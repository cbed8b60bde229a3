import Questionnaire.Document.Yaml.Node
import Questionnaire.Page.Order
import Questionnaire.Sorted

/-!
# Settings

What an operator may choose: how weighted orders are drawn, whether failures of conditions are
warnings, whether hidden pages are passed over, and a seed that makes sessions reproducible.
-/

namespace Questionnaire

/-- The choices of an operator. -/
structure Settings where
  weighting : Weighting
  logFailures : Bool
  skipHidden : Bool
  randomSeed : Option Int
  deriving DecidableEq, Repr, Inhabited

/-- Why a configuration is refused. -/
inductive SettingsError
  | unreadable
  | notYaml
  | notMapping
  /-- A key is not a text. -/
  | keyNotText
  | unknownKeys (keys : List String)
  | notWeighting (value : Value)
  | notBoolean (key : String)
  | seedNotInteger

/-- The wording of a refusal. -/
def SettingsError.message : SettingsError → String
  | .unreadable => "Cannot read config"
  | .notYaml => "Invalid YAML"
  | .notMapping => "Configuration must be a mapping"
  | .keyNotText => "Configuration keys must be texts"
  | .unknownKeys keys => "Unknown configuration keys: " ++ ", ".intercalate keys
  | .notWeighting value =>
    "weighted_order must be 'weighted' or 'shuffle', got " ++ value.quoted
  | .notBoolean key => key ++ " must be a boolean"
  | .seedNotInteger => "random_seed must be an integer"

namespace Settings

/-- The settings of an operator who chooses nothing. -/
def default : Settings := ⟨.sampled, true, true, none⟩

/-- The code of a way to draw weighted orders. -/
def weightingCode : Weighting → String
  | .sampled => "weighted"
  | .shuffled => "shuffle"

/-- The way to draw weighted orders with a code. -/
def weighting? (code : String) : Option Weighting :=
  [.sampled, .shuffled].find? fun w => weightingCode w == code

/-- The keys of a configuration, in increasing order. -/
def keys : List String :=
  ["log_evaluation_failures", "random_seed", "skip_invisible_pages", "weighted_order"]

/-- Reads the way to draw weighted orders. -/
def readWeighting : Option Value → Except SettingsError Weighting
  | none => .ok default.weighting
  | some (.text code) =>
    match weighting? code with
    | some w => .ok w
    | none => .error (.notWeighting (.text code))
  | some v => .error (.notWeighting v)

/-- Reads a truth value, true unless it is given. -/
def readFlag (key : String) : Option Value → Except SettingsError Bool
  | none => .ok true
  | some (.bool b) => .ok b
  | some _ => .error (.notBoolean key)

/-- Reads the seed. -/
def readSeed : Option Value → Except SettingsError (Option Int)
  | none | some .null => .ok none
  | some (.int i) => .ok (some i)
  | some _ => .error .seedNotInteger

/-- Reads a configuration; nothing stands for one without keys. -/
def ofDocument : Value → Except SettingsError Settings
  | .null => .ok default
  | .map entries =>
    match (entries.map Prod.fst).filter fun k => !keys.contains k with
    | [] => do
      let weighting ← readWeighting (Dict.lookup "weighted_order" entries)
      let logFailures ← readFlag "log_evaluation_failures"
        (Dict.lookup "log_evaluation_failures" entries)
      let skipHidden ← readFlag "skip_invisible_pages"
        (Dict.lookup "skip_invisible_pages" entries)
      let randomSeed ← readSeed (Dict.lookup "random_seed" entries)
      .ok ⟨weighting, logFailures, skipHidden, randomSeed⟩
    | unknown => .error (.unknownKeys (sortedTexts unknown))
  | _ => .error .notMapping

/-- Reads the text of a configuration. -/
def ofYaml (text : String) : Except SettingsError Settings :=
  match Yaml.Node.ofText text with
  | .error _ => .error .notYaml
  | .ok node =>
    match node.toValue with
    | .error _ => .error .notYaml
    | .ok d => if node.hasTextKeys then ofDocument d else .error .keyNotText

/-- Reads the text of a configuration file, if there is such a file. -/
def ofFile : Option String → Except SettingsError Settings
  | none => .error .unreadable
  | some text => ofYaml text

/-- The document of settings. -/
def toDocument (s : Settings) : Value := .ofEntries
  [("weighted_order", .text (weightingCode s.weighting)),
    ("log_evaluation_failures", .bool s.logFailures),
    ("skip_invisible_pages", .bool s.skipHidden),
    ("random_seed",
      match s.randomSeed with
      | none => .null
      | some i => .int i)]

end Settings

end Questionnaire
