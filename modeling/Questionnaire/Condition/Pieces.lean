import Questionnaire.Condition.Token

/-!
# The pieces of a composite condition

Conditions are joined by ` && ` and ` || ` with a single blank on either side, and negated by
`!(` … `)` around a whole text. Nothing inside a quoted string counts, and a backslash inside a
string takes the character after it. Parentheses do not protect a connective.
-/

namespace Questionnaire.Condition

open Questionnaire.Text

/-- Puts a character in front of the first piece. -/
def extendFirst (c : Char) : List (List Char) → List (List Char)
  | [] => [[c]]
  | piece :: r => (c :: piece) :: r

/-- The pieces of a text between the signs of a connective, which is written ` mark mark `;
`quote` is the quote of the string in which the text starts. -/
def piecesFrom (mark : Char) : Option Char → List Char → List (List Char)
  | _, [] => [[]]
  | some q, c :: r =>
    if c == backslash then
      match r with
      | [] => [[c]]
      | d :: r' => extendFirst c (extendFirst d (piecesFrom mark (some q) r'))
    else extendFirst c (piecesFrom mark (if c == q then none else some q) r)
  | none, c :: r =>
    if isQuote c then extendFirst c (piecesFrom mark (some c) r)
    else
      match r with
      | a :: b :: d :: r' =>
        if c == ' ' && a == mark && b == mark && d == ' ' then [] :: piecesFrom mark none r'
        else extendFirst c (piecesFrom mark none (a :: b :: d :: r'))
      | r => extendFirst c (piecesFrom mark none r)

/-- The pieces of a text between the signs of a connective. -/
def pieces (connective : Connective) (cs : List Char) : List (List Char) :=
  piecesFrom connective.mark none cs

/-- The text before the parenthesis that closes `depth + 1` open ones, if that is the last
character. -/
def closedAtEnd? : Nat → Option Char → List Char → Option (List Char)
  | _, _, [] => none
  | depth, some q, c :: r =>
    if c == backslash then
      match r with
      | [] => none
      | d :: r' => (closedAtEnd? depth (some q) r').map fun s => c :: d :: s
    else (closedAtEnd? depth (if c == q then none else some q) r).map (c :: ·)
  | depth, none, c :: r =>
    if isQuote c then (closedAtEnd? depth (some c) r).map (c :: ·)
    else if c == '(' then (closedAtEnd? (depth + 1) none r).map (c :: ·)
    else if c == ')' then
      match depth with
      | 0 => if r.isEmpty then some [] else none
      | depth + 1 => (closedAtEnd? depth none r).map (c :: ·)
    else (closedAtEnd? depth none r).map (c :: ·)

/-- The text inside a negation that wraps the whole text. -/
def insideNegation? : List Char → Option (List Char)
  | '!' :: '(' :: r => closedAtEnd? 0 none r
  | _ => none

/-- Takes off all negations that wrap the whole text, with the blanks around what they wrap:
whether their number is odd, and what is left. `fuel` bounds their number. -/
def unwrapWithin : Nat → Bool → List Char → Bool × List Char
  | 0, odd, cs => (odd, cs)
  | fuel + 1, odd, cs =>
    match insideNegation? cs with
    | some inner => unwrapWithin fuel (!odd) (trim inner)
    | none => (odd, cs)

/-- Takes off all negations that wrap a text: whether their number is odd, and what is left. -/
def unwrap (cs : List Char) : Bool × List Char := unwrapWithin cs.length false cs

end Questionnaire.Condition
