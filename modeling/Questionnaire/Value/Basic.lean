import Questionnaire.Dict
import Questionnaire.Number.Binary64

/-!
# Answer values

What a respondent submits, what an author attaches to a loop item and what a session carries along
is a value of one type: nothing, a truth value, a number, a text, a list, or a mapping from texts.
Integers and numbers with a fraction are different values that may be equal as numbers. Whether two
values are the very same is decidable; whether they are equal is told in the module on agreement.
-/

namespace Questionnaire

/-- A value that an answer, an attribute or a datum may have. The entries of a mapping in normal
form stand in increasing order of their keys (`Value.ofEntries`, `Value.sorted`). -/
inductive Value
  | null
  | bool (b : Bool)
  | int (i : Int)
  | float (x : Binary64)
  | text (s : String)
  | list (items : List Value)
  | map (entries : List (String × Value))
  deriving Inhabited

/-- What an author names a part of a survey by: nearly always a text, but any value is accepted as
it is. -/
abbrev Id := Value

namespace Value

/-- The mapping with the given entries; of two values under one key the later counts. -/
def ofEntries (entries : List (String × Value)) : Value := .map (Dict.ofList entries).entries

/-- The entries with a value put under a key: in place of an earlier one, or at the end. -/
def putWritten (k : String) (v : Value) : List (String × Value) → List (String × Value)
  | [] => [(k, v)]
  | (a, w) :: r => if k = a then (k, v) :: r else (a, w) :: putWritten k v r

/-- The mapping with the given entries in the order in which they are written; of two values under
one key the later counts, at the place of the first. -/
def ofWritten (entries : List (String × Value)) : Value :=
  .map (entries.foldl (fun l e => putWritten e.1 e.2 l) [])

/-- The mapping that a dictionary of values is. -/
def ofDict (d : Dict Value) : Value := .map d.entries

/-- A text, or nothing. -/
def ofText? : Option String → Value
  | none => .null
  | some s => .text s

/-- What counts as given: not nothing, not false, not zero and not empty. -/
def isTruthy : Value → Bool
  | .null => false
  | .bool b => b
  | .int i => i != 0
  | .float x => x.compareInt? 0 != some .eq
  | .text s => s != ""
  | .list items => !items.isEmpty
  | .map entries => !entries.isEmpty

/-- The values that a list answer selects; a single value selects itself and nothing selects
nothing. -/
def selections : Value → List Value
  | .null => []
  | .list items => items
  | v => [v]

/-- A value that is not nothing. -/
def given? : Value → Option Value
  | .null => none
  | v => some v

/-- A value, or nothing. -/
def orNull : Option Value → Value
  | none => .null
  | some v => v

mutual

/-- The value with the entries of every mapping in it in increasing order of their keys. -/
def sorted : Value → Value
  | .list items => .list (sortedItems items)
  | .map entries => ofEntries (sortedEntries entries)
  | v => v

/-- The elements of a list in normal form. -/
def sortedItems : List Value → List Value
  | [] => []
  | v :: r => sorted v :: sortedItems r

/-- The entries of a mapping with their values in normal form. -/
def sortedEntries : List (String × Value) → List (String × Value)
  | [] => []
  | (k, v) :: r => (k, sorted v) :: sortedEntries r

end

/-! ## Kinds -/

/-- A text. -/
def isText : Value → Bool
  | .text _ => true
  | _ => false

/-- A list or a mapping. Nothing can be kept under one of these. -/
def isCompound : Value → Bool
  | .list _ | .map _ => true
  | _ => false

/-- A value that counts as a number: truth values do, and so does what is stored as a number but is
none. -/
def isNumeric : Value → Bool
  | .bool _ | .int _ | .float _ => true
  | _ => false

/-- What is stored as a number but is none. -/
def isNan : Value → Bool
  | .float x => x.isNan
  | _ => false

/-- A number in the proper sense, which has a size. -/
def isSized : Value → Bool
  | .bool _ | .int _ => true
  | .float x => !x.isNan
  | _ => false

/-! ## Numbers -/

/-- The whole part of a number; what is not a number counts as zero. -/
def wholePart : Value → Int
  | .bool b => b.toNat
  | .int i => i
  | .float x => x.wholePart
  | _ => 0

/-- The number some whole steps after a value, or before it if their number is negative; what is not
a number counts as zero. -/
def shifted (v : Value) (steps : Int) : Value :=
  match v with
  | .bool b => .int (b.toNat + steps)
  | .int i => .int (i + steps)
  | .float x => .float (x.add (.ofRatio (decide (steps < 0)) steps.natAbs 1))
  | _ => .int steps

/-! ## Identity -/

mutual

/-- Whether two values are the very same. -/
def same : Value → Value → Bool
  | .null, .null => true
  | .bool a, .bool b => a == b
  | .int i, .int j => i == j
  | .float x, .float y => decide (x = y)
  | .text s, .text t => s == t
  | .list xs, .list ys => sameItems xs ys
  | .map xs, .map ys => sameEntries xs ys
  | _, _ => false

/-- Whether two lists have the very same elements. -/
def sameItems : List Value → List Value → Bool
  | [], [] => true
  | x :: xs, y :: ys => same x y && sameItems xs ys
  | _, _ => false

/-- Whether two mappings have the very same entries. -/
def sameEntries : List (String × Value) → List (String × Value) → Bool
  | [], [] => true
  | (j, x) :: xs, (k, y) :: ys => j == k && same x y && sameEntries xs ys
  | _, _ => false

end

mutual

theorem same_self : ∀ v : Value, same v v = true
  | .null => rfl
  | .bool _ | .int _ | .float _ | .text _ => by simp [same]
  | .list xs => by simpa [same] using sameItems_self xs
  | .map xs => by simpa [same] using sameEntries_self xs

theorem sameItems_self : ∀ xs : List Value, sameItems xs xs = true
  | [] => rfl
  | x :: xs => by simp [sameItems, same_self x, sameItems_self xs]

theorem sameEntries_self : ∀ xs : List (String × Value), sameEntries xs xs = true
  | [] => rfl
  | (k, x) :: xs => by simp [sameEntries, same_self x, sameEntries_self xs]

end

mutual

theorem eq_of_same : ∀ {v w : Value}, same v w = true → v = w
  | .null, w, h | .bool _, w, h | .int _, w, h | .float _, w, h | .text _, w, h => by
    cases w <;> simp_all [same]
  | .list xs, w, h => by
    cases w with
    | list ys => exact congrArg Value.list (eq_of_sameItems (by simpa [same] using h))
    | _ => simp [same] at h
  | .map xs, w, h => by
    cases w with
    | map ys => exact congrArg Value.map (eq_of_sameEntries (by simpa [same] using h))
    | _ => simp [same] at h

theorem eq_of_sameItems : ∀ {xs ys : List Value}, sameItems xs ys = true → xs = ys
  | [], [], _ => rfl
  | [], _ :: _, h | _ :: _, [], h => by simp [sameItems] at h
  | x :: xs, y :: ys, h => by
    obtain ⟨hx, hr⟩ : same x y = true ∧ sameItems xs ys = true := by simpa [sameItems] using h
    rw [eq_of_same hx, eq_of_sameItems hr]

theorem eq_of_sameEntries :
    ∀ {xs ys : List (String × Value)}, sameEntries xs ys = true → xs = ys
  | [], [], _ => rfl
  | [], _ :: _, h | _ :: _, [], h => by simp [sameEntries] at h
  | (j, x) :: xs, (k, y) :: ys, h => by
    obtain ⟨⟨hk, hx⟩, hr⟩ : (j = k ∧ same x y = true) ∧ sameEntries xs ys = true := by
      simpa [sameEntries] using h
    rw [hk, eq_of_same hx, eq_of_sameEntries hr]

end

instance : DecidableEq Value := fun v w =>
  decidable_of_iff (same v w = true) ⟨eq_of_same, fun h => h ▸ same_self v⟩

/-! ## Kinds of numbers -/

/-- An integer or a number with a fraction. -/
inductive Number
  | int (i : Int)
  | float (x : Binary64)

/-- The number that a value is; a truth value is zero or one. -/
def number? : Value → Option Number
  | .bool b => some (.int b.toNat)
  | .int i => some (.int i)
  | .float x => some (.float x)
  | _ => none

end Value

end Questionnaire
