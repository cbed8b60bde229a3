import Questionnaire.Document.Yaml.Word

/-!
# Cutting YAML into tokens

Indentation is turned into brackets: a key or an element that stands further right than what is
open starts a mapping or a list, and what stands further left ends one. That a word is a key is
known only at the colon after it, so the place of a possible key is kept and its token is put in
later. A key must stand on one line.

Anchors, tags, directives and literal blocks are not part of the format that is read here.
-/

namespace Questionnaire.Yaml

open Questionnaire.Text

/-- A word or bracket that may turn out to be a key: the number of its token, whether it must be
one, and where it stands. -/
structure KeyPlace where
  token : Nat
  required : Bool
  line : Nat
  column : Nat
  offset : Nat

/-- The state of cutting a text. The possible keys stand under the number of brackets open around
them, the innermost first; `outer` holds the indentations around the current one. -/
structure Lexer where
  place : Place
  brackets : Nat
  indent : Int
  outer : List Int
  keyAllowed : Bool
  keys : List (Nat × KeyPlace)
  tokens : Array Token

namespace Lexer

/-- The state at the start of a text. -/
def start (cs : List Char) : Lexer := ⟨.start cs, 0, -1, [], true, [], #[]⟩

/-- Whether a bracket is open. -/
def inFlow (l : Lexer) : Bool := l.brackets != 0

/-- The state with a token more. -/
def emit (l : Lexer) (t : Token) : Lexer := { l with tokens := l.tokens.push t }

/-- The state after some characters. -/
def skip (l : Lexer) (n : Nat) : Lexer := { l with place := l.place.skip n }

/-! ## Indentation -/

/-- Ends the mappings and lists that start right of a column. -/
def unwindFrom (column : Int) : List Int → Lexer → Lexer
  | [], l => l
  | i :: outer, l =>
    if column < l.indent then
      unwindFrom column outer { l.emit .blockEnd with indent := i, outer := outer }
    else l

/-- Ends the mappings and lists that start right of a column; brackets know no indentation. -/
def unwind (l : Lexer) (column : Int) : Lexer :=
  if l.inFlow then l else unwindFrom column l.outer l

/-- Starts a mapping or list at a column that is right of the current one. -/
def indentTo (l : Lexer) (column : Nat) (t : Token) (atToken : Nat) : Lexer :=
  if l.indent < column then
    { l with
      indent := column
      outer := l.indent :: l.outer
      tokens := l.tokens.insertIdxIfInBounds atToken t }
  else l

/-- Starts a mapping or list here if this is right of the current one. -/
def indentHere (l : Lexer) (t : Token) : Lexer :=
  if l.inFlow then l else l.indentTo l.place.column t l.tokens.size

/-! ## Possible keys -/

/-- The possible key in the innermost bracket. -/
def key? (l : Lexer) : Option KeyPlace :=
  match l.keys with
  | (n, k) :: _ => if n == l.brackets then some k else none
  | [] => none

/-- Forgets the possible key in the innermost bracket; one that must be a key may not be
forgotten. -/
def forgetKey (l : Lexer) : Except Defect Lexer :=
  match l.key? with
  | none => .ok l
  | some k => if k.required then .error .token else .ok { l with keys := l.keys.drop 1 }

/-- Remembers that what starts here may be a key. -/
def rememberKey (l : Lexer) : Except Defect Lexer :=
  if l.keyAllowed then do
    let l ← l.forgetKey
    let p := l.place
    let required := !l.inFlow && l.indent == (p.column : Int)
    .ok { l with
      keys := (l.brackets, ⟨l.tokens.size, required, p.line, p.column, p.offset⟩) :: l.keys }
  else .ok l

/-- Whether a possible key can no longer be one: its line has ended, or it is too long. -/
def isStale (p : Place) (k : KeyPlace) : Bool := k.line != p.line || k.offset + 1024 < p.offset

/-- Forgets the possible keys that can no longer be keys. -/
def forgetStale (l : Lexer) : Except Defect Lexer :=
  if l.keys.any fun k => isStale l.place k.2 && k.2.required then .error .token
  else .ok { l with keys := l.keys.filter fun k => !isStale l.place k.2 }

/-! ## Tokens -/

/-- Skips blanks, comments and line breaks; after a break a key may start, unless in a bracket. -/
def skipBlanks : Nat → Lexer → Lexer
  | 0, l => l
  | fuel + 1, l =>
    let p := l.place.skipWhile (· == ' ')
    let p := if p.rest.head? == some '#' then p.skipWhile fun c => !isBreak c else p
    match p.rest with
    | c :: _ =>
      if isBreak c then
        skipBlanks fuel { l with place := p.next, keyAllowed := l.keyAllowed || !l.inFlow }
      else { l with place := p }
    | [] => { l with place := p }

/-- A mark between documents. -/
def documentMark (l : Lexer) (t : Token) : Except Defect Lexer := do
  let l ← (l.unwind (-1)).forgetKey
  .ok ({ l with keyAllowed := false }.emit t |>.skip 3)

/-- An opening bracket or brace. -/
def opening (l : Lexer) (t : Token) : Except Defect Lexer := do
  let l ← l.rememberKey
  .ok ({ l with brackets := l.brackets + 1, keyAllowed := true }.emit t |>.skip 1)

/-- A closing bracket or brace. -/
def closing (l : Lexer) (t : Token) : Except Defect Lexer := do
  let l ← l.forgetKey
  .ok ({ l with brackets := l.brackets - 1, keyAllowed := false }.emit t |>.skip 1)

/-- A comma between elements. -/
def comma (l : Lexer) : Except Defect Lexer := do
  let l ← l.forgetKey
  .ok ({ l with keyAllowed := true }.emit .comma |>.skip 1)

/-- A dash before an element. -/
def dash (l : Lexer) : Except Defect Lexer := do
  if !l.inFlow && !l.keyAllowed then .error .token
  else
    let l ← (l.indentHere .listStart).forgetKey
    .ok ({ l with keyAllowed := true }.emit .entry |>.skip 1)

/-- A question mark before a key. -/
def question (l : Lexer) : Except Defect Lexer := do
  if !l.inFlow && !l.keyAllowed then .error .token
  else
    let l ← (l.indentHere .mappingStart).forgetKey
    .ok ({ l with keyAllowed := !l.inFlow }.emit .key |>.skip 1)

/-- A colon after the possible key `k`. -/
def colonAfter (l : Lexer) (k : KeyPlace) : Lexer :=
  let l := { l with keys := l.keys.drop 1, tokens := l.tokens.insertIdxIfInBounds k.token .key }
  let l := if l.inFlow then l else l.indentTo k.column .mappingStart k.token
  { l with keyAllowed := false }.emit .value |>.skip 1

/-- A colon before a value. -/
def colon (l : Lexer) : Except Defect Lexer := do
  match l.key? with
  | some k => .ok (l.colonAfter k)
  | none =>
    if !l.inFlow && !l.keyAllowed then .error .token
    else
      let l ← (l.indentHere .mappingStart).forgetKey
      .ok ({ l with keyAllowed := !l.inFlow }.emit .value |>.skip 1)

/-- A quoted word. -/
def quotedToken (l : Lexer) (quote : Char) : Except Defect Lexer := do
  let l ← l.rememberKey
  let (s, p) ← quotedWord quote l.place
  .ok ({ l with keyAllowed := false, place := p }.emit (.quoted s))

/-- An unquoted word. -/
def plainToken (l : Lexer) : Except Defect Lexer := do
  let l ← l.rememberKey
  let (s, p, ended) := plainWord l.inFlow (l.indent + 1) l.place
  .ok ({ l with keyAllowed := ended, place := p }.emit (.plain s))

/-- Whether an unquoted word may start with a character. -/
def startsPlain (inFlow : Bool) (c : Char) (r : List Char) : Bool :=
  !(isSpace c || "-?:,[]\x7b\x7d#&*!|>%@\x60".toList.contains c || c == singleQuote ||
      c == doubleQuote) ||
    (!atSpace r && (c == '-' || (!inFlow && (c == '?' || c == ':'))))

/-- The end of the text. -/
def finish (l : Lexer) : Except Defect Lexer := do
  let l ← (l.unwind (-1)).forgetKey
  .ok ({ l with keys := [] }.emit .streamEnd)

/-- The next token, which starts with a character here. -/
def tokenFrom (l : Lexer) (c : Char) (r : List Char) : Except Defect Lexer :=
  if l.place.column == 0 && l.place.atDocumentMark then
    l.documentMark (if c == '-' then .documentStart else .documentEnd)
  else if c == '[' then l.opening .openBracket
  else if c == '{' then l.opening .openBrace
  else if c == ']' then l.closing .closeBracket
  else if c == '}' then l.closing .closeBrace
  else if c == ',' then l.comma
  else if c == '-' && atSpace r then l.dash
  else if c == '?' && (l.inFlow || atSpace r) then l.question
  else if c == ':' && (l.inFlow || atSpace r) then l.colon
  else if c == singleQuote || c == doubleQuote then l.quotedToken c
  else if startsPlain l.inFlow c r then l.plainToken
  else .error .token

/-- The state after the next token, or after the end of the text, which ends the cutting. -/
def step (l : Lexer) : Except Defect (Lexer × Bool) := do
  let l ← (l.skipBlanks (l.place.rest.length + 1)).forgetStale
  let l := l.unwind l.place.column
  match l.place.rest with
  | [] => return (← l.finish, true)
  | c :: r => return (← l.tokenFrom c r, false)

/-- The number of tokens that are certain: those before the first possible key. -/
def certain (l : Lexer) : Nat := l.keys.foldl (fun n k => min n k.2.token) l.tokens.size

/-- Cuts the text to its end or to the first defect. A reader asks for one token more only when
those that are certain are used up, and before that the possible keys that can no longer be keys are
forgotten; `given` is the number of tokens that a reader has been given, and `fuel` bounds the
number of characters. -/
def run : Nat → Nat → Lexer → List Token × Defect
  | 0, given, l => (l.tokens.toList.take given, .token)
  | fuel + 1, given, l =>
    match l.forgetStale with
    | .error e => (l.tokens.toList.take given, e)
    | .ok l =>
      match l.step with
      | .error e => (l.tokens.toList.take l.certain, e)
      | .ok (after, true) => (after.tokens.toList, .token)
      | .ok (after, false) => run fuel l.certain after

end Lexer

/-- The tokens of a text up to its end or to its first defect, and that defect. -/
def tokens (text : String) : List Token × Defect :=
  let cs := text.toList
  if cs.all isAllowed then
    let cs := unifyBreaks cs
    let cs := if cs.head? == some '\ufeff' then cs.drop 1 else cs
    (Lexer.start cs).run (cs.length + 1) 0
  else ([], .character)

end Questionnaire.Yaml
