/-!
# Binary floating-point numbers

An answer may be a number with a fraction. Such numbers are those of the IEEE format `binary64`: a
sign, a significand below `2 ^ 53` and a power of two, together with two infinities and values that
are not numbers, told apart by a payload that no operation looks at. Everything here is exact
arithmetic on `Nat` and `Int`: a quotient is rounded once, to the nearest representable number, a
tie going to the even significand (`Binary64.ofRatio`).

A finite number is in normal form when its significand is at least `2 ^ 52` or its exponent is the
least one; every function below returns normal forms, so that equal numbers of equal sign have
equal representations.
-/

namespace Questionnaire

/-- A `binary64` number. The finite constructor stands for `± significand * 2 ^ exponent`. -/
inductive Binary64
  | nan (payload : Nat)
  | infinite (negative : Bool)
  | finite (negative : Bool) (significand : Nat) (exponent : Int)
  deriving DecidableEq, Repr, Inhabited

namespace Binary64

/-- The least exponent; subnormal numbers and zero have it. -/
def minExponent : Int := -1074

/-- The greatest exponent of a finite number. -/
def maxExponent : Int := 971

/-- A power of two. -/
def twoTo (n : Nat) : Nat := Nat.pow 2 n

theorem twoTo_pos (n : Nat) : 0 < twoTo n := Nat.pow_pos (by decide)

/-- A power of ten. -/
def tenTo (n : Nat) : Nat := Nat.pow 10 n

/-- The numerator and denominator of `num / den / 2 ^ e`. -/
def shifted (num den : Nat) (e : Int) : Nat × Nat :=
  if 0 ≤ e then (num, den * twoTo e.toNat) else (num * twoTo (-e).toNat, den)

/-- The integer nearest to `num / den`; a half goes to the even neighbour. -/
def roundHalfEven (num den : Nat) : Nat :=
  let q := num / den
  let r := num % den
  if 2 * r < den then q
  else if den < 2 * r then q + 1
  else if q % 2 = 0 then q
  else q + 1

/-- The exponent at which `num / den` has a significand of 53 bits, or the least exponent. -/
def exponentOf (num den : Nat) : Int :=
  let e : Int := (Nat.log2 num : Int) - (Nat.log2 den : Int) - 53
  let s := shifted num den e
  max (if s.1 / s.2 < twoTo 53 then e else e + 1) minExponent

/-- The number nearest to `± num / den`; a tie goes to the even significand, and what is too large
becomes infinite. -/
def ofRatio (negative : Bool) (num den : Nat) : Binary64 :=
  if num = 0 then .finite negative 0 minExponent
  else
    let e := exponentOf num den
    let s := shifted num den e
    let m := roundHalfEven s.1 s.2
    let (m, e) := if m = twoTo 53 then (twoTo 52, e + 1) else (m, e)
    if maxExponent < e then .infinite negative else .finite negative m e

/-- The number nearest to `± m * 2 ^ e`. -/
def ofScaled (negative : Bool) (m : Nat) (e : Int) : Binary64 :=
  if 0 ≤ e then ofRatio negative (m * twoTo e.toNat) 1 else ofRatio negative m (twoTo (-e).toNat)

/-- The number nearest to an integer, if that is finite. -/
def ofInt? (i : Int) : Option Binary64 :=
  match ofRatio (decide (i < 0)) i.natAbs 1 with
  | .infinite _ => none
  | x => some x

/-- The number nearest to the quotient of two integers; a zero denominator counts as one. A zero
quotient has the sign of the denominator. -/
def quotient (a b : Int) : Binary64 :=
  ofRatio (decide (a < 0) != decide (b < 0)) a.natAbs (max b.natAbs 1)

/-- The number nearest to `± digits * 10 ^ e`. Far outside the format's range nothing is
computed: the answer is infinite or zero. -/
def ofDecimal (negative : Bool) (digits : Nat) (e : Int) : Binary64 :=
  let magnitude : Int := (Nat.log2 digits : Int) / 3 + e
  if digits = 0 || magnitude < -500 - (Nat.log2 digits : Int) then .finite negative 0 minExponent
  else if 500 < e then .infinite negative
  else if 0 ≤ e then ofRatio negative (digits * tenTo e.toNat) 1
  else ofRatio negative digits (tenTo (-e).toNat)

/-- Zero and one, the numbers that stand for the two truth values. -/
def ofBool (b : Bool) : Binary64 := ofRatio false b.toNat 1

/-- What is not a number, as a result of an operation. -/
def notANumber : Binary64 := .nan 0

/-- Not a number. -/
def isNan : Binary64 → Bool
  | .nan _ => true
  | _ => false

/-- The number nearest to the product; zero times an infinity is not a number. -/
def mul : Binary64 → Binary64 → Binary64
  | .nan _, _ | _, .nan _ => notANumber
  | .infinite s, .infinite t => .infinite (s != t)
  | .infinite s, .finite t m _ | .finite t m _, .infinite s =>
    if m = 0 then notANumber else .infinite (s != t)
  | .finite s m d, .finite t n e => ofScaled (s != t) (m * n) (d + e)

/-- The number nearest to the quotient; zero over zero and infinity over infinity are not numbers,
and any other number over zero is infinite. -/
def div : Binary64 → Binary64 → Binary64
  | .nan _, _ | _, .nan _ | .infinite _, .infinite _ => notANumber
  | .infinite s, .finite t .. => .infinite (s != t)
  | .finite s .., .infinite t => .finite (s != t) 0 minExponent
  | .finite s m d, .finite t n e =>
    if n = 0 then (if m = 0 then notANumber else .infinite (s != t))
    else
      let low := min d e
      ofRatio (s != t) (m * twoTo (d - low).toNat) (n * twoTo (e - low).toNat)

/-- The significand with its sign. -/
def signed (negative : Bool) (m : Nat) : Int := if negative then -(m : Int) else m

/-- The number nearest to the sum. Infinities of different signs have none, and a zero sum is
negative only if both numbers are. -/
def add : Binary64 → Binary64 → Binary64
  | .nan _, _ | _, .nan _ => notANumber
  | .infinite s, .infinite t => if s = t then .infinite s else notANumber
  | .infinite s, .finite .. | .finite .., .infinite s => .infinite s
  | .finite s m d, .finite t n e =>
    let low := min d e
    let sum := signed s m * twoTo (d - low).toNat + signed t n * twoTo (e - low).toNat
    ofScaled (if sum = 0 then s && t else decide (sum < 0)) sum.natAbs low

/-- The same number with the other sign. -/
def neg : Binary64 → Binary64
  | .nan n => .nan n
  | .infinite s => .infinite (!s)
  | .finite s m e => .finite (!s) m e

/-! ## Order and equality -/

/-- The order of `a * 2 ^ d` and `b * 2 ^ e`. -/
def compareScaled (a : Int) (d : Int) (b : Int) (e : Int) : Ordering :=
  let low := min d e
  compare (a * twoTo (d - low).toNat) (b * twoTo (e - low).toNat)

/-- The order of two numbers, if both are numbers: zeros are equal whatever their sign. -/
def compare? : Binary64 → Binary64 → Option Ordering
  | .nan _, _ | _, .nan _ => none
  | .infinite s, .infinite t => some (compare t.toNat s.toNat)
  | .infinite s, .finite .. => some (if s then .lt else .gt)
  | .finite .., .infinite t => some (if t then .gt else .lt)
  | .finite s m d, .finite t n e => some (compareScaled (signed s m) d (signed t n) e)

/-- The exact order of a number and an integer, if the first is a number. -/
def compareInt? : Binary64 → Int → Option Ordering
  | .nan _, _ => none
  | .infinite s, _ => some (if s then .lt else .gt)
  | .finite s m e, i => some (compareScaled (signed s m) e i 0)

/-- Strictly less; false if one of the two is not a number. -/
def lt (x y : Binary64) : Bool := compare? x y == some .lt

/-- Equal as numbers; false if one of the two is not a number. -/
def eq (x y : Binary64) : Bool := compare? x y == some .eq

/-- At most zero; false if it is not a number. -/
def isNonpositive : Binary64 → Bool
  | .nan _ => false
  | .infinite s => s
  | .finite s m _ => s || m == 0

/-! ## Units

The least positive number divides every finite one, so that exact comparisons need integers only. -/

/-- The number of units in an integer. -/
def unitsOfInt (i : Int) : Int := i * twoTo 1074

/-- The number of units in a finite number; what is not finite counts as none. -/
def units : Binary64 → Int
  | .finite s m e => signed s (m * twoTo (e - minExponent).toNat)
  | .nan _ | .infinite _ => 0

/-! ## Integers -/

/-- The integer that the number is, if it is one. -/
def toInt? : Binary64 → Option Int
  | .finite s m e =>
    if 0 ≤ e then some (signed s (m * twoTo e.toNat))
    else
      let d := twoTo (-e).toNat
      if m % d = 0 then some (signed s (m / d)) else none
  | _ => none

/-- The integer between a number and zero that is nearest to it; zero for what is not finite. -/
def wholePart : Binary64 → Int
  | .finite s m e => signed s (if 0 ≤ e then m * twoTo e.toNat else m / twoTo (-e).toNat)
  | _ => 0

/-- The integer nearest to a finite number, a half going to the even neighbour. -/
def round? : Binary64 → Option Int
  | .finite s m e =>
    let r := shifted m 1 (-e)
    some (signed s (roundHalfEven r.1 r.2))
  | _ => none

/-! ## The machine's numbers -/

/-- The same number as a machine number. -/
def toFloat : Binary64 → Float
  | .nan _ => 0.0 / 0.0
  | .infinite s => if s then -1.0 / 0.0 else 1.0 / 0.0
  | .finite s m e =>
    let x := Float.scaleB m.toUInt64.toFloat e
    if s then -x else x

end Binary64

end Questionnaire
