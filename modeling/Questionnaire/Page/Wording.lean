import Questionnaire.Fault
import Questionnaire.Session.Plan

/-!
# Wording

Titles, questions and labels may hold tokens: `{{loop.name}}` for the current iteration,
`${pipe:question:variable:field}` for an earlier answer and `{{embeddedData.key}}` for embedded
data. A text is cut into pieces, tokens and the characters between them (`Wording.pieces`), and
each token is replaced by its value. What is put in is not searched for tokens of the same kind. A
token that has no value stays as written, so that authors can see it.
-/

namespace Questionnaire.Wording

/-! ## Pieces -/

/-- A piece of a text: a character, or a token as written with what it names. -/
inductive Piece (α : Type)
  | char (c : Char)
  | token (written : List Char) (name : α)

/-- The piece as written. -/
def Piece.written {α : Type} : Piece α → List Char
  | .char c => [c]
  | .token w _ => w

/-- Whether the piece is a token. -/
def Piece.isToken {α : Type} : Piece α → Bool
  | .char _ => false
  | .token .. => true

/-- The pieces of a text after its first `skip` characters; `token?` finds the token at the start of
a text. -/
def piecesFrom {α : Type} (token? : List Char → Option (List Char × α)) :
    Nat → List Char → List (Piece α)
  | _, [] => []
  | skip + 1, _ :: r => piecesFrom token? skip r
  | 0, c :: r =>
    match token? (c :: r) with
    | some (written, name) => .token written name :: piecesFrom token? (written.length - 1) r
    | none => .char c :: piecesFrom token? 0 r

/-- The pieces of a text, from left to right. -/
def pieces {α : Type} (token? : List Char → Option (List Char × α)) (cs : List Char) :
    List (Piece α) :=
  piecesFrom token? 0 cs

/-- The text with each token replaced by its value, if it has one. -/
def substitute {α : Type} (value? : α → Option String) (ps : List (Piece α)) : List Char :=
  ps.flatMap fun
    | .char c => [c]
    | .token written name =>
      match value? name with
      | some v => v.toList
      | none => written

/-! ## The shapes of tokens -/

/-- A brace. -/
def isBrace (c : Char) : Bool := c == '{' || c == '}'

/-- The rest of a text after an opening that it starts with. -/
def after? (opening cs : List Char) : Option (List Char) :=
  if opening.isPrefixOf cs then some (cs.drop opening.length) else none

/-- The token that stands between an opening and two closing braces; its name is not empty and has
no braces. -/
def bracedToken? (opening : String) (cs : List Char) : Option (List Char × String) :=
  (after? opening.toList cs).bind fun r =>
    let name := r.takeWhile fun c => !isBrace c
    match r.dropWhile fun c => !isBrace c with
    | '}' :: '}' :: _ =>
      if name.isEmpty then none
      else some (opening.toList ++ name ++ ['}', '}'], String.ofList name)
    | _ => none

/-- A token for the current iteration. -/
def loopToken? : List Char → Option (List Char × String) := bracedToken? "\x7b\x7bloop."

/-- A token for embedded data. -/
def embeddedToken? : List Char → Option (List Char × String) :=
  bracedToken? "\x7b\x7bembeddedData."

/-- The opening of a token for an answer. -/
def pipeOpening : List Char := "$\x7bpipe:question:".toList

/-- A token for an answer: a variable without colons, and a field. -/
def pipeToken? (cs : List Char) : Option (List Char × (String × String)) :=
  (after? pipeOpening cs).bind fun r =>
    let name := r.takeWhile fun c => !isBrace c && c != ':'
    match r.dropWhile fun c => !isBrace c && c != ':' with
    | ':' :: r =>
      let field := r.takeWhile fun c => !isBrace c
      match r.dropWhile fun c => !isBrace c with
      | '}' :: _ =>
        if name.isEmpty || field.isEmpty then none
        else some (pipeOpening ++ name ++ ':' :: field ++ ['}'],
          (String.ofList name, String.ofList field))
      | _ => none
    | _ => none

end Questionnaire.Wording
