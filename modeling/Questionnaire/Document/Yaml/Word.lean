import Questionnaire.Document.Json.Reader
import Questionnaire.Document.Yaml.Token

/-!
# The words of YAML

Unquoted and quoted words may run over several lines. Between two parts of a word one line break
counts as a blank and any further ones stand for themselves; blanks around a break do not count.
-/

namespace Questionnaire.Yaml

open Questionnaire.Text

/-- What a run of line breaks stands for. -/
def folded : List Char → List Char
  | [] => []
  | b :: more =>
    if b == '\n' then (if more.isEmpty then [' '] else more) else b :: more

/-! ## Unquoted words -/

/-- Whether a character ends a run of an unquoted word. -/
def endsRun (inFlow : Bool) (c : Char) (r : List Char) : Bool :=
  isSpace c ||
  (c == ':' && (atSpace r || (inFlow && (r.take 1).any [',', '[', ']', '{', '}'].contains))) ||
  (inFlow && [',', '?', '[', ']', '{', '}'].contains c)

/-- The characters of an unquoted word up to the next separator. -/
def plainRun (inFlow : Bool) : List Char → List Char
  | [] => []
  | c :: r => if endsRun inFlow c r then [] else c :: plainRun inFlow r

/-- Skips blanks and line breaks, but not over a mark between documents: the breaks, the place after
them, and whether there was such a mark. `fuel` bounds the number of characters. -/
def plainBreaks : Nat → Place → List Char × Place × Bool
  | 0, p => ([], p, false)
  | fuel + 1, p =>
    match p.rest with
    | c :: _ =>
      if c == ' ' then plainBreaks fuel p.next
      else if isBreak c then
        if p.next.atDocumentMark then ([], p.next, true)
        else
          let (breaks, q, marked) := plainBreaks fuel p.next
          (c :: breaks, q, marked)
      else ([], p, false)
    | [] => ([], p, false)

/-- What separates two runs of an unquoted word, the place after it, and whether a line ended. -/
def plainGap (p : Place) : List Char × Place × Bool :=
  let blanks := p.rest.takeWhile (· == ' ')
  let q := p.skip blanks.length
  match q.rest with
  | c :: _ =>
    if isBreak c then
      if q.next.atDocumentMark then ([], q.next, true)
      else
        let (breaks, place, marked) := plainBreaks q.next.rest.length q.next
        (if marked then [] else folded (c :: breaks), place, true)
    else (blanks, q, false)
  | [] => (blanks, q, false)

/-- The runs of an unquoted word after a gap, the place after them, and whether a line ended there.
Outside brackets a further line must be indented by `indent`. `fuel` bounds the number of runs. -/
def plainRuns (inFlow : Bool) (indent : Int) :
    Nat → List Char → Place → Bool → List Char × Place × Bool
  | 0, _, p, ended => ([], p, ended)
  | fuel + 1, gap, p, ended =>
    let run := if p.rest.head? == some '#' then [] else plainRun inFlow p.rest
    if run.isEmpty then ([], p, ended)
    else
      let (gap', q, ended) := plainGap (p.skip run.length)
      if gap'.isEmpty || q.rest.head? == some '#' || (!inFlow && decide ((q.column : Int) < indent))
      then (gap ++ run, q, ended)
      else
        let (more, place, ended) := plainRuns inFlow indent fuel gap' q ended
        (gap ++ run ++ more, place, ended)

/-- An unquoted word, the place after it, and whether a line ended there. -/
def plainWord (inFlow : Bool) (indent : Int) (p : Place) : String × Place × Bool :=
  let (cs, q, ended) := plainRuns inFlow indent (p.rest.length + 1) [] p false
  (String.ofList cs, q, ended)

/-! ## Quoted words -/

/-- Skips blanks and line breaks in a quoted word: the breaks and the place after them. A mark
between documents may not stand there. -/
def quotedBreaks : Nat → Place → Except Defect (List Char × Place)
  | 0, p => .ok ([], p)
  | fuel + 1, p =>
    if p.atDocumentMark then .error .token
    else
      let q := p.skipWhile fun c => c == ' ' || c == '\t'
      match q.rest with
      | c :: _ =>
        if isBreak c then
          (quotedBreaks fuel q.next).map fun (breaks, place) => (c :: breaks, place)
        else .ok ([], q)
      | [] => .ok ([], q)

/-- Blanks in a quoted word: what they stand for, and the place after them. -/
def quotedBlanks (p : Place) : Except Defect (List Char × Place) :=
  let blanks := p.rest.takeWhile fun c => c == ' ' || c == '\t'
  let q := p.skip blanks.length
  match q.rest with
  | [] => .error .token
  | c :: _ =>
    if isBreak c then
      (quotedBreaks (q.rest.length + 1) q.next).map fun (breaks, place) =>
        (folded (c :: breaks), place)
    else .ok (blanks, q)

/-- The character of an escape of one letter. -/
def shortEscape? (c : Char) : Option Char :=
  ([('0', '\u0000'), ('a', '\u0007'), ('b', '\u0008'), ('t', '\t'), ('\t', '\t'), ('n', '\n'),
    ('v', '\u000b'), ('f', '\u000c'), ('r', '\r'), ('e', '\u001b'), (' ', ' '),
    (doubleQuote, doubleQuote), (backslash, backslash), ('/', '/'), ('N', '\u0085'),
    ('_', '\u00a0'), ('L', '\u2028'), ('P', '\u2029')].find? fun e => e.1 == c).map Prod.snd

/-- The number of digits of an escape by a character's number. -/
def escapeLength? : Char → Option Nat
  | 'x' => some 2
  | 'u' => some 4
  | 'U' => some 8
  | _ => none

/-- The characters that an escape after a backslash stands for, and the place after it. -/
def escape (p : Place) : Except Defect (List Char × Place) :=
  match p.rest with
  | [] => .error .token
  | c :: r =>
    match shortEscape? c, escapeLength? c with
    | some e, _ => .ok ([e], p.next)
    | none, some n =>
      if (r.take n).length == n then
        match Json.hexNumber? (r.take n) with
        | some code => .ok ([Char.ofNat code], p.next.skip n)
        | none => .error .token
      else .error .token
    | none, none =>
      if isBreak c then quotedBreaks (r.length + 1) p.next
      else .error .token

/-- The rest of a quoted word after its opening quote, and the place after it; `fuel` bounds the
number of its characters. -/
def quotedRest (quote : Char) : Nat → Place → Except Defect (List Char × Place)
  | 0, _ => .error .token
  | fuel + 1, p => do
    match p.rest with
    | [] => .error .token
    | c :: r =>
      let (part, q) ←
        if isSpace c then quotedBlanks p
        else if c == backslash && quote == doubleQuote then escape p.next
        else if c == quote && quote == singleQuote && r.head? == some quote then
          pure ([quote], p.skip 2)
        else if c == quote then return ([], p.next)
        else pure ([c], p.next)
      let (more, place) ← quotedRest quote fuel q
      return (part ++ more, place)

/-- A quoted word whose quote stands here, and the place after it. -/
def quotedWord (quote : Char) (p : Place) : Except Defect (String × Place) :=
  (quotedRest quote (p.rest.length + 1) p.next).map fun (cs, q) => (String.ofList cs, q)

end Questionnaire.Yaml
