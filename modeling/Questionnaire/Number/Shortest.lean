import Questionnaire.Number.Binary64

/-!
# The shortest decimal of a number

A number is written with the fewest decimal digits that read back as the same number, and with the
nearest such decimal if there are several. The decimals that read back as `m * 2 ^ e` are those of
an interval around it that reaches half way to the two neighbouring numbers; its ends belong to it
when `m` is even, because ties go to the even significand. On the grid of decimals with `n` digits
only the two neighbours of the number itself can be the nearest ones, so the grids for
`n = 1, 2, …, 17` are tried in turn; the last one always has a point in the interval.
-/

namespace Questionnaire.Binary64

/-- A positive number `m * 2 ^ e` and a decimal grid of spacing `10 ^ u`, in units that make both
integers: the number is `4 * m * unit`, and a grid step is `step`. -/
structure Grid where
  unit : Nat
  step : Nat

/-- The common units of quarters of `2 ^ e` and multiples of `10 ^ u`. -/
def Grid.of (e u : Int) : Grid where
  unit := twoTo (e - 2).toNat * tenTo (-u).toNat
  step := tenTo u.toNat * twoTo (2 - e).toNat

/-- The point of the grid that reads back as `m * 2 ^ e` and is nearest to it, counted in steps;
of two that are equally near the even one. -/
def Grid.nearest? (g : Grid) (m : Nat) (atPowerOfTwo : Bool) : Option Nat :=
  let value := 4 * m * g.unit
  let low := (4 * m - if atPowerOfTwo then 1 else 2) * g.unit
  let high := (4 * m + 2) * g.unit
  let inside (x : Nat) : Bool :=
    if m % 2 = 0 then low ≤ x && x ≤ high else low < x && x < high
  let below := value / g.step
  let above := below + 1
  let a := below * g.step
  let b := above * g.step
  match inside a, inside b with
  | false, false => none
  | true, false => some below
  | false, true => some above
  | true, true =>
    if value - a < b - value then some below
    else if b - value < value - a then some above
    else if below % 2 = 0 then some below else some above

/-- The number of digits before the decimal point of `m * 2 ^ e`, zero or negative for a number
below one: the least `k` with `m * 2 ^ e < 10 ^ k`. -/
def pointOf (m : Nat) (e : Int) : Int :=
  let estimate : Int := ((Nat.log2 m : Int) + e) * 30103 / 100000 - 1
  let isBelow (k : Int) : Bool :=
    m * twoTo e.toNat * tenTo (-k).toNat < tenTo k.toNat * twoTo (-e).toNat
  (((List.range 4).map fun (i : Nat) => estimate + i).find? isBelow).getD (estimate + 4)

/-- Digits of a decimal number and the place of its point: `0.d₁d₂… * 10 ^ point`. -/
structure Decimal where
  digits : List Char
  point : Int

/-- The decimal of `steps` grid steps of `10 ^ u`, without trailing zeros. -/
def Decimal.ofSteps (steps : Nat) (u : Int) : Decimal :=
  let all := Nat.toDigits 10 steps
  { digits := (all.reverse.dropWhile (· == '0')).reverse, point := u + all.length }

/-- The shortest decimal that reads back as the positive number `m * 2 ^ e`. -/
def shortest (m : Nat) (e : Int) : Decimal :=
  let k := pointOf m e
  let atPowerOfTwo := m == twoTo 52 && minExponent < e
  let onGrid? (n : Nat) : Option Decimal :=
    let u := k - ((n : Int) + 1)
    ((Grid.of e u).nearest? m atPowerOfTwo).map (Decimal.ofSteps · u)
  ((List.range 17).findSome? onGrid?).getD (Decimal.ofSteps m e)

/-! ## Layout -/

/-- What the output formats decide about the text of a number. -/
structure Layout where
  /-- The text of what is not a number. -/
  nan : String
  /-- The text of positive infinity; a minus is put before it for the negative one. -/
  infinity : String
  /-- A significand of one digit has a point and a zero before the exponent. -/
  pointBeforeExponent : Bool

/-- Messages and piped answers write `nan` and `inf`. -/
def plainLayout : Layout := ⟨"nan", "inf", false⟩

/-- The text of a decimal: positional when the exponent is between `-4` and `15`, otherwise with a
signed exponent of at least two digits. A positional integer has `.0`. -/
def Decimal.text (d : Decimal) (layout : Layout) : List Char :=
  let n := d.digits.length
  if -4 < d.point && d.point ≤ 16 then
    if d.point ≤ 0 then '0' :: '.' :: List.replicate (-d.point).toNat '0' ++ d.digits
    else
      let k := d.point.toNat
      if n ≤ k then d.digits ++ List.replicate (k - n) '0' ++ ['.', '0']
      else d.digits.take k ++ '.' :: d.digits.drop k
  else
    let exponent := d.point - 1
    let fraction :=
      match d.digits.drop 1 with
      | [] => if layout.pointBeforeExponent then ['.', '0'] else []
      | r => '.' :: r
    let magnitude := Nat.toDigits 10 exponent.natAbs
    d.digits.take 1 ++ fraction ++ ['e', if exponent < 0 then '-' else '+'] ++
      List.replicate (2 - magnitude.length) '0' ++ magnitude

/-- The text of a number in a layout. -/
def text (layout : Layout) : Binary64 → String
  | .nan _ => layout.nan
  | .infinite s => (if s then "-" else "") ++ layout.infinity
  | .finite s m e =>
    let digits := if m = 0 then ['0', '.', '0'] else (shortest m e).text layout
    String.ofList (if s then '-' :: digits else digits)

end Questionnaire.Binary64
