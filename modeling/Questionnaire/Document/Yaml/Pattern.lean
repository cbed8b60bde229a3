/-!
# Patterns

The meaning of an unquoted word depends on its form, and the forms are regular. A pattern describes
a set of texts; `Pattern.accepts` decides membership by taking one derivative per character.
-/

namespace Questionnaire.Yaml

/-- A regular set of texts. -/
inductive Pattern
  /-- No text. -/
  | nothing
  /-- The empty text. -/
  | empty
  /-- One character that passes a test. -/
  | one (test : Char → Bool)
  | both (first second : Pattern)
  | either (first second : Pattern)
  /-- Any number of repetitions. -/
  | many (p : Pattern)

namespace Pattern

/-- Whether the empty text belongs to a pattern. -/
def acceptsEmpty : Pattern → Bool
  | nothing => false
  | empty => true
  | one _ => false
  | both p q => acceptsEmpty p && acceptsEmpty q
  | either p q => acceptsEmpty p || acceptsEmpty q
  | many _ => true

/-- One pattern after another, without parts that no text can match. -/
def join : Pattern → Pattern → Pattern
  | nothing, _ => nothing
  | _, nothing => nothing
  | empty, q => q
  | p, q => both p q

/-- One pattern or another, without parts that no text can match. -/
def choose : Pattern → Pattern → Pattern
  | nothing, q => q
  | p, nothing => p
  | p, q => either p q

/-- What may follow a character in the texts of a pattern. -/
def after (c : Char) : Pattern → Pattern
  | nothing => nothing
  | empty => nothing
  | one test => if test c then empty else nothing
  | both p q =>
    let rest := join (after c p) q
    if acceptsEmpty p then choose rest (after c q) else rest
  | either p q => choose (after c p) (after c q)
  | many p => join (after c p) (many p)

/-- Whether a text belongs to a pattern. -/
def accepts (p : Pattern) (cs : List Char) : Bool :=
  acceptsEmpty (cs.foldl (fun q c => after c q) p)

/-- The pattern of one given character. -/
def char (c : Char) : Pattern := one (· == c)

/-- The pattern of one of the characters of a text. -/
def oneOf (s : String) : Pattern := one fun c => s.toList.contains c

/-- The pattern of one text. -/
def word (s : String) : Pattern := s.toList.foldr (fun c p => both (char c) p) empty

/-- The pattern of a few texts. -/
def words (l : List String) : Pattern := l.foldr (fun s p => either (word s) p) nothing

/-- Patterns one after the other. -/
def all (l : List Pattern) : Pattern := l.foldr both empty

/-- One of a few patterns. -/
def any (l : List Pattern) : Pattern := l.foldr either nothing

/-- A pattern or nothing. -/
def optional (p : Pattern) : Pattern := either p empty

/-- At least one repetition. -/
def some (p : Pattern) : Pattern := both p (many p)

/-- A digit. -/
def digit : Pattern := one Char.isDigit

end Pattern

end Questionnaire.Yaml
