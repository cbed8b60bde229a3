import Questionnaire.Value.Agreement

/-!
# Places in an order

The parts of a survey are put in order by indexes, and an index is whatever its author wrote.
Numbers go by size, texts by their characters, and lists by their first elements that differ
(`Value.less`, `Value.atMost`). Indexes of different kinds cannot be compared at all
(`Value.areComparable`).

Numbers and texts have places, which are totally ordered (`Place.le_trans`, `Place.le_total`,
`Place.le_antisymm`), so that sorting by them always has one result.
-/

namespace Questionnaire

/-- A place in an order. A number stands on a scale on which every finite number is an integer, or
below or above all of these. -/
inductive Place
  | below
  | number (units : Int)
  | above
  | text (s : String)
  | nowhere
  deriving DecidableEq

namespace Place

/-- Whether a place is not behind another one. -/
def isBefore : Place → Place → Bool
  | .below, _ | _, .nowhere => true
  | .number a, .number b => decide (a ≤ b)
  | .text s, .text t => decide (s ≤ t)
  | .number _, .above | .number _, .text _ | .above, .above | .above, .text _ => true
  | _, _ => false

instance : LE Place := ⟨fun p q => p.isBefore q = true⟩

instance : LT Place := ⟨fun p q => ¬q ≤ p⟩

instance : DecidableLE Place := fun p q => inferInstanceAs (Decidable (p.isBefore q = true))

instance : DecidableLT Place := fun p q => inferInstanceAs (Decidable (¬q ≤ p))

theorem le_def {p q : Place} : p ≤ q ↔ p.isBefore q = true := .rfl

theorem lt_iff_not_le {p q : Place} : p < q ↔ ¬q ≤ p := .rfl

theorem le_total (p q : Place) : p ≤ q ∨ q ≤ p := by
  cases p <;> cases q <;> simp [le_def, isBefore, Int.le_total, String.le_total]

theorem le_refl (p : Place) : p ≤ p := (le_total p p).elim id id

theorem le_trans {p q r : Place} (hpq : p ≤ q) (hqr : q ≤ r) : p ≤ r := by
  cases p <;> cases q <;> cases r <;> simp_all [le_def, isBefore]
  · exact Int.le_trans hpq hqr
  · exact String.le_trans hpq hqr

theorem le_antisymm {p q : Place} (hpq : p ≤ q) (hqp : q ≤ p) : p = q := by
  cases p <;> cases q <;> simp_all [le_def, isBefore]
  · exact Int.le_antisymm hpq hqp
  · exact String.le_antisymm hpq hqp

end Place

namespace Value

/-- The place of a value in an order. -/
def place (v : Value) : Place :=
  match v with
  | .text s => .text s
  | .bool b => .number (Binary64.unitsOfInt b.toNat)
  | .int i => .number (Binary64.unitsOfInt i)
  | .float (.infinite negative) => if negative then .below else .above
  | .float x => if x.isNan then .nowhere else .number x.units
  | .null | .list _ | .map _ => .nowhere

/-- Whether a value has a place of its own: it is a text or a number. -/
def isPlaced (v : Value) : Bool := v.isText || v.isSized

/-! ## Comparison -/

mutual

/-- Whether a value comes before another one. What cannot be compared comes before nothing. -/
def less : Value → Value → Bool
  | .text s, .text t => decide (s < t)
  | .list xs, .list ys => lessItems xs ys
  | v, w => v.isSized && w.isSized && decide (v.place < w.place)

/-- Whether a list comes before another one: the first elements that differ decide, and if there are
none, the lengths. -/
def lessItems : List Value → List Value → Bool
  | _, [] => false
  | [], _ :: _ => true
  | x :: xs, y :: ys => if x.agrees y then lessItems xs ys else less x y

end

mutual

/-- Whether a value comes before another one or with it. What cannot be compared does not. -/
def atMost : Value → Value → Bool
  | .text s, .text t => decide (s ≤ t)
  | .list xs, .list ys => atMostItems xs ys
  | v, w => v.isSized && w.isSized && decide (v.place ≤ w.place)

/-- Whether a list comes before another one or with it. -/
def atMostItems : List Value → List Value → Bool
  | [], _ => true
  | _ :: _, [] => false
  | x :: xs, y :: ys => if x.agrees y then atMostItems xs ys else atMost x y

end

mutual

/-- Whether two values can be compared: they are both numbers, both texts, or lists whose first
elements that differ can be compared. -/
def isComparableTo : Value → Value → Bool
  | .text _, .text _ => true
  | .list xs, .list ys => areItemsComparable xs ys
  | v, w => v.isNumeric && w.isNumeric

/-- Whether the first elements of two lists that differ can be compared. -/
def areItemsComparable : List Value → List Value → Bool
  | [], _ | _, [] => true
  | x :: xs, y :: ys => if x.agrees y then areItemsComparable xs ys else isComparableTo x y

end

/-- Whether every value can be compared with those behind it. -/
def arePairwiseComparable : List Value → Bool
  | [] => true
  | v :: r => r.all v.isComparableTo && arePairwiseComparable r

/-- Whether values can be put in an order. -/
def areComparable (l : List Value) : Bool :=
  l.all isNumeric || l.all isText || arePairwiseComparable l

theorem place_int_le_iff (a b : Int) : (Value.int a).place ≤ (Value.int b).place ↔ a ≤ b := by
  have h : (0 : Int) < Binary64.twoTo 1074 := Int.natCast_pos.2 (Binary64.twoTo_pos 1074)
  simp only [place, Place.le_def, Place.isBefore, decide_eq_true_eq]
  exact Int.mul_le_mul_right h

/-- Integers are compared by size. -/
theorem atMost_int (a b : Int) : (Value.int a).atMost (.int b) = decide (a ≤ b) := by
  simp [atMost, isSized, place_int_le_iff]

theorem less_int (a b : Int) : (Value.int a).less (.int b) = decide (a < b) := by
  simp only [less, isSized, Bool.and_self, Bool.true_and, decide_eq_decide]
  rw [Place.lt_iff_not_le, ← Int.not_le, place_int_le_iff]

end Value

end Questionnaire
