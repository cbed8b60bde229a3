import Questionnaire.Document.Yaml.Lexer
import Questionnaire.Document.Yaml.Scalar
import Questionnaire.Value.Text

/-!
# Documents in YAML

The tokens of a text form a tree of words, lists and mappings, which has a value as a document. A
mapping's keys may be any words; a key that is not a text is written as one. Under the key `<<`
stand mappings whose entries are merged into the mapping around it.
-/

namespace Questionnaire.Yaml

/-- A part of a document. -/
inductive Node
  | plain (s : String)
  | quoted (s : String)
  | list (items : List Node)
  | mapping (entries : List (Node × Node))
  deriving Inhabited

namespace Node

/-- What is not written. -/
def missing : Node := .plain ""

/-! ## From tokens -/

/-- Reads from tokens; when they end, their defect is the result. -/
abbrev Reads := ReaderT Defect (StateT (List Token) (Except Defect))

/-- The next token, which stays. -/
def peek : Reads Token := do
  match ← get with
  | t :: _ => pure t
  | [] => throw (← read)

/-- Drops the next token. -/
def drop : Reads Unit := modify (List.drop 1)

/-- Drops the next token if it is the given one, and whether it was. -/
def dropIf (t : Token) : Reads Bool := do
  if (← peek) == t then
    drop
    pure true
  else pure false

/-- Drops the given token, which must come next. -/
def expect (t : Token) : Reads Unit := do
  if !(← dropIf t) then throw .structural

/-- Tokens form no document. -/
def refuse {α : Type} : Reads α := throw .structural

/-- Whether one of a few tokens comes next. -/
def comes (ts : List Token) : Reads Bool := return ts.contains (← peek)

/-- Where a part stands: in brackets; by itself; or after a key, where the elements of a list need
not be indented. -/
inductive Position
  | inFlow
  | inBlock
  | afterKey
  deriving DecidableEq, Repr

/-- A part that may be left out before one of the given tokens. -/
def orMissing (ts : List Token) (read : Reads Node) : Reads Node := do
  if ← comes ts then pure missing else read

mutual

/-- The part that comes next; `fuel` bounds its depth and the length of what it holds. -/
def node : Nat → Position → Reads Node
  | 0, _ => refuse
  | fuel + 1, position => do
    match ← peek with
    | .plain s => do
      drop
      pure (.plain s)
    | .quoted s => do
      drop
      pure (.quoted s)
    | .openBracket => do
      drop
      return .list (← flowItems fuel true)
    | .openBrace => do
      drop
      return .mapping (← flowEntries fuel true)
    | .listStart =>
      if position == .inFlow then refuse
      else do
        drop
        let items ← blockItems fuel [.entry, .blockEnd]
        expect .blockEnd
        return .list items
    | .mappingStart =>
      if position == .inFlow then refuse
      else do
        drop
        let entries ← blockEntries fuel
        expect .blockEnd
        return .mapping entries
    | .entry =>
      if position == .afterKey then
        return .list (← blockItems fuel [.entry, .key, .value, .blockEnd])
      else refuse
    | _ => refuse

/-- The elements of a list by indentation; one that is left out stands before one of the given
tokens. -/
def blockItems : Nat → List Token → Reads (List Node)
  | 0, _ => refuse
  | fuel + 1, ends => do
    if ← dropIf .entry then
      let item ← orMissing ends (node fuel .inBlock)
      return item :: (← blockItems fuel ends)
    else pure []

/-- The entries of a mapping by indentation. -/
def blockEntries : Nat → Reads (List (Node × Node))
  | 0 => refuse
  | fuel + 1 => do
    if ← dropIf .key then
      let key ← orMissing [.key, .value, .blockEnd] (node fuel .afterKey)
      let value ←
        if ← dropIf .value then orMissing [.key, .value, .blockEnd] (node fuel .afterKey)
        else pure missing
      return (key, value) :: (← blockEntries fuel)
    else pure []

/-- The elements of a list in brackets up to the closing one; the first has no comma before it. -/
def flowItems : Nat → Bool → Reads (List Node)
  | 0, _ => refuse
  | fuel + 1, first => do
    if ← dropIf .closeBracket then return []
    if !first then expect .comma
    if ← dropIf .key then
      let key ← orMissing [.value, .comma, .closeBracket] (node fuel .inFlow)
      let value ←
        if ← dropIf .value then orMissing [.comma, .closeBracket] (node fuel .inFlow)
        else pure missing
      return .mapping [(key, value)] :: (← flowItems fuel false)
    else if ← dropIf .closeBracket then return []
    else
      let item ← node fuel .inFlow
      return item :: (← flowItems fuel false)

/-- The entries of a mapping in braces up to the closing one; the first has no comma before it. -/
def flowEntries : Nat → Bool → Reads (List (Node × Node))
  | 0, _ => refuse
  | fuel + 1, first => do
    if ← dropIf .closeBrace then return []
    if !first then expect .comma
    if ← dropIf .key then
      let key ← orMissing [.value, .comma, .closeBrace] (node fuel .inFlow)
      let value ←
        if ← dropIf .value then orMissing [.comma, .closeBrace] (node fuel .inFlow)
        else pure missing
      return (key, value) :: (← flowEntries fuel false)
    else if ← dropIf .closeBrace then return []
    else
      let key ← node fuel .inFlow
      return (key, missing) :: (← flowEntries fuel false)

end

/-- The only document of a text; a text without one is nothing. `fuel` bounds the number of
tokens. -/
def document (fuel : Nat) : Reads Node := do
  let explicit ← dropIf .documentStart
  if ← comes [.streamEnd] then return missing
  let root ←
    if explicit then orMissing [.documentStart, .documentEnd] (node fuel .inBlock)
    else node fuel .inBlock
  modify (List.dropWhile (· == .documentEnd))
  if ← comes [.streamEnd] then pure root
  else if ← comes [.documentStart] then throw .secondDocument
  else refuse

/-- The document of a text. -/
def ofText (text : String) : Except Defect Node := do
  let (ts, defect) := tokens text
  (document (ts.length + 1) defect ts).map Prod.fst

/-! ## Values -/

/-- The sign that stands as a key before mappings that are merged into the one around it. -/
def mergeSign : String := "<<"

/-- The value of an unquoted word. A lone `=` and the sign of a merged mapping have none. -/
def plainValue (s : String) : Except Defect Value :=
  if s == "=" || s == mergeSign then .error .meaningless else .ok (Scalar.value s)

/-- Whether a key is the sign of a merged mapping. -/
def isMergeSign : Node → Bool
  | .plain s => s == mergeSign
  | _ => false

/-- The text that a key is written as; a lone `=` is a text here. -/
def keyText : Node → Except Defect String
  | .plain s => if s == "=" then .ok s else (plainValue s).map Value.display
  | .quoted s => .ok s
  | .list _ | .mapping _ => .error .meaningless

mutual

/-- The value of a part. Of two entries with one key the later counts, and the entries of merged
mappings come before all others. -/
def toValue : Node → Except Defect Value
  | .plain s => plainValue s
  | .quoted s => .ok (.text s)
  | .list items => return .list (← toValues items)
  | .mapping entries => do
    let (merged, own) ← toEntries entries
    return Value.ofWritten (merged ++ own)

/-- The values of the elements of a list. -/
def toValues : List Node → Except Defect (List Value)
  | [] => .ok []
  | n :: r => do
    let v ← toValue n
    return v :: (← toValues r)

/-- The entries of merged mappings, and the other entries, with their keys as texts. -/
def toEntries : List (Node × Node) → Except Defect (List (String × Value) × List (String × Value))
  | [] => .ok ([], [])
  | (k, n) :: r => do
    if k.isMergeSign then
      let here ← mergedEntries n
      let (merged, own) ← toEntries r
      return (here ++ merged, own)
    else
      let key ← keyText k
      let v ← toValue n
      let (merged, own) ← toEntries r
      return (merged, (key, v) :: own)

/-- The entries of a mapping, or of a list of mappings, that is merged. -/
def mergedEntries : Node → Except Defect (List (String × Value))
  | .mapping entries => do
    let (merged, own) ← toEntries entries
    return merged ++ own
  | .list items => mergedItems items
  | _ => .error .meaningless

/-- The entries of a list of mappings; earlier mappings count more, so they come later. -/
def mergedItems : List Node → Except Defect (List (String × Value))
  | [] => .ok []
  | .mapping entries :: r => do
    let (merged, own) ← toEntries entries
    return (← mergedItems r) ++ merged ++ own
  | _ :: _ => .error .meaningless

end

/-- Whether a word is a text. -/
def isText : Node → Bool
  | .plain s => match Scalar.value s with
    | .text _ => true
    | _ => false
  | .quoted _ => true
  | _ => false

/-- Whether all keys of a mapping are texts; what is no mapping has none. -/
def hasTextKeys : Node → Bool
  | .mapping entries => entries.all fun e => e.1.isText
  | _ => true

end Node

/-- Reads a document. -/
def parse (text : String) : Except Defect Value := do (← Node.ofText text).toValue

end Questionnaire.Yaml
