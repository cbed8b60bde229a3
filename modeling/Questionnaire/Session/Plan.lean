import Questionnaire.Fault
import Questionnaire.Value.Place

/-!
# Loop plans

A battery is repeated once per item of its plan. A plan is made once and then kept: its items do
not change, only its cursor moves. The plan iterates while the cursor is below the number of items
and is complete from then on; a plan without items is complete from the start and marks a battery
that was skipped.

A cursor may have been stored by anyone, so it is a value of any kind. A negative one counts from
the end of the items, and one that points before the first item shows nothing. A fraction can be
compared with the number of items but points to none of them, and what is not a number cannot even
be compared. The plans that are made here have integers for cursors.
-/

namespace Questionnaire

/-- What one iteration is about. -/
structure LoopItem where
  key : Id
  label : Value
  attributes : Register Value
  deriving DecidableEq, Inhabited

/-- The items of a battery and a cursor. -/
structure LoopPlan where
  batteryId : Id
  items : List LoopItem
  cursor : Value
  deriving DecidableEq, Inhabited

/-- The iteration for which a page is shown. -/
structure Iteration where
  batteryId : Id
  item : LoopItem
  index : Value
  total : Value
  deriving DecidableEq, Inhabited

/-- How far a cursor gets over items that are not live: where it stops, the keys of the items that
it passed over, and the fault that stopped it if there is one. -/
structure Passage where
  cursor : Value
  passed : List Id
  fault : Option Fault

/-- A number some whole steps after another one. -/
def Value.stepped (v : Value) (steps : Int) : Except Fault Value :=
  if v.isNumeric then .ok (v.shifted steps) else .error .wrongKind

namespace LoopPlan

/-- The plan of a battery that has nothing to iterate over. -/
def skipped (batteryId : Id) : LoopPlan := ⟨batteryId, [], .int 0⟩

/-- The item at an index; a negative index counts from the end. -/
def itemAt? (p : LoopPlan) (i : Int) : Option LoopItem :=
  if 0 ≤ i then p.items[i.toNat]?
  else if -i ≤ p.items.length then p.items[p.items.length - (-i).toNat]?
  else none

/-- The item that a cursor points to. -/
def itemAt (p : LoopPlan) (cursor : Value) : Except Fault LoopItem :=
  let found : Option LoopItem → Except Fault LoopItem
    | some item => .ok item
    | none => .error .noSuchItem
  match cursor with
  | .int i => found (p.itemAt? i)
  | .bool b => found (p.itemAt? b.toNat)
  | _ => .error .wrongKind

/-- The keys of the items. -/
def keys (p : LoopPlan) : List Id := p.items.map LoopItem.key

/-- Whether all items are done when the cursor is at a place. -/
def isCompleteAt (p : LoopPlan) : Value → Except Fault Bool
  | .int c => .ok (decide ((p.items.length : Int) ≤ c))
  | c => if c.isNumeric then .ok ((Value.int p.items.length).atMost c) else .error .wrongKind

/-- Whether all items are done. -/
def isComplete (p : LoopPlan) : Except Fault Bool := p.isCompleteAt p.cursor

/-- The item at the cursor; none if all are done. -/
def currentItem (p : LoopPlan) : Except Fault (Option LoopItem) := do
  if ← p.isComplete then .ok none else .ok (some (← p.itemAt p.cursor))

/-- The index of the item to show: the cursor, or the last item once all are done. -/
def displayIndex (p : LoopPlan) : Except Fault (Option Value) :=
  let last : Int := p.items.length - 1
  if p.items.isEmpty then .ok none
  else
    match p.cursor with
    | .int c => .ok (some (.int (min c last)))
    | c =>
      if c.isNumeric then .ok (some (if (Value.int last).less c then .int last else c))
      else .error .wrongKind

/-- The plan with its cursor on the next item, if it is not complete. -/
def advance (p : LoopPlan) : Except Fault LoopPlan := do
  if ← p.isComplete then .ok p else .ok { p with cursor := p.cursor.shifted 1 }

/-- The plan with its cursor one item before the one shown; none at the first item. -/
def rewind (p : LoopPlan) : Except Fault (Option LoopPlan) := do
  match ← p.displayIndex with
  | none => .ok none
  | some i => .ok (if i.isTruthy then some { p with cursor := i.shifted (-1) } else none)

/-- The plan with its cursor behind the last item. -/
def close (p : LoopPlan) : LoopPlan := { p with cursor := .int p.items.length }

/-- Whether there is an item behind the cursor's. -/
def hasNext (p : LoopPlan) : Except Fault Bool := do
  .ok ((← p.cursor.stepped 1).less (.int p.items.length))

/-- The iteration that a plan shows; none for a plan without items. -/
def iteration (p : LoopPlan) : Except Fault (Option Iteration) := do
  match ← p.displayIndex with
  | none => .ok none
  | some i => .ok (some ⟨p.batteryId, ← p.itemAt i, i, .int p.items.length⟩)

/-- The key of the item at a place if it is not live; none at a live item and behind the last
one. -/
def staleKey (p : LoopPlan) (live : List Id) (c : Value) : Except Fault (Option Id) := do
  if ← p.isCompleteAt c then .ok none
  else
    let item ← p.itemAt c
    demandKeys [item.key]
    .ok (if item.key.isAmong live then none else some item.key)

/-- The way of a cursor from `c` over items that are not live; `fuel` bounds their number. -/
def passageFrom (p : LoopPlan) (live : List Id) : Nat → Value → Passage
  | 0, c => ⟨c, [], none⟩
  | fuel + 1, c =>
    match p.staleKey live c with
    | .error e => ⟨c, [], some e⟩
    | .ok none => ⟨c, [], none⟩
    | .ok (some key) =>
      let rest := passageFrom p live fuel (c.shifted 1)
      { rest with passed := key :: rest.passed }

/-- The way of a plan's cursor over items that are not live. -/
def passage (p : LoopPlan) (live : List Id) : Passage :=
  p.passageFrom live ((p.items.length : Int) - p.cursor.wholePart + 1).toNat p.cursor

end LoopPlan

namespace Iteration

/-- The number of the iteration, counted from one. -/
def number (i : Iteration) : Except Fault Value := i.index.stepped 1

/-- The first iteration. -/
def isFirst (i : Iteration) : Bool := i.index.equal (.int 0)

/-- The last iteration. -/
def isLast (i : Iteration) : Except Fault Bool := do .ok (i.index.equal (← i.total.stepped (-1)))

/-- A number as a binary number. -/
def binary : Value.Number → Except Fault Binary64
  | .float x => .ok x
  | .int i =>
    match Binary64.ofInt? i with
    | some x => .ok x
    | none => .error .numberTooLarge

/-- The quotient of two numbers; of two integers it is rounded once. -/
def share : Value.Number → Value.Number → Except Fault Binary64
  | .int a, .int b =>
    if b = 0 then .error (.divisionByZero true)
    else
      match Binary64.quotient a b with
      | .infinite _ => .error .numberTooLarge
      | x => .ok x
  | a, b => do
    let x ← binary a
    let y ← binary b
    if y.eq (.ofRatio false 0 1) then .error (.divisionByZero false) else .ok (x.div y)

/-- The share of the iterations that are done with this one, in percent. -/
def percent (i : Iteration) : Except Fault Binary64 := do
  match (← i.number).number?, i.total.number? with
  | some done, some total => .ok ((← share done total).mul (.ofRatio false 100 1))
  | _, _ => .error .wrongKind

/-- The percentage as an integer. -/
def roundedPercent (i : Iteration) : Except Fault Int := do
  let x ← i.percent
  match x.round? with
  | some n => .ok n
  | none => if x.isNan then .error .notRoundable else .error .numberTooLarge

end Iteration

end Questionnaire
