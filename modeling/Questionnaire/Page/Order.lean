import Questionnaire.Flow
import Questionnaire.Sorted

/-!
# Display order

Groups, questions and choices are shown in an order drawn once per session. The first order of a
list is kept in the session under a key made of the scope, the owner and the mode
(`Order.cacheKey`). A later request for the same list gets the kept order restricted to what is
asked for; what was never seen before follows in authored order and is kept as well. So nothing
moves once it was shown. The authored order is never kept.
-/

namespace Questionnaire

/-- How a weighted order is drawn. -/
inductive Weighting
  /-- A greater weight tends to come first. -/
  | sampled
  /-- Weights do not count. -/
  | shuffled
  deriving DecidableEq, Repr, Inhabited

/-- One thing to put in order, with what some modes read. -/
structure Sortable where
  id : Id
  groupKey : Id
  weight : Value
  deriving DecidableEq

/-- One thing to put in order without a group and a weight. -/
def Sortable.plain (id : Id) : Sortable := ⟨id, .null, .null⟩

/-- Whether a thing belongs to a group. -/
def Sortable.isGrouped (i : Sortable) : Bool := i.groupKey.isTruthy

namespace Order

/-- The key under which an order is kept. -/
def cacheKey (scope owner : String) (mode : OrderMode) : String :=
  scope ++ ":" ++ owner ++ ":" ++ mode.code

/-- The mode that a stored value names; an unknown one counts as the authored order. -/
def coerceMode (mode : Value) : Flow OrderMode :=
  match mode with
  | .text code =>
    match OrderMode.ofCode? code with
    | some m => pure m
    | none => unknown
  | _ => unknown
where
  /-- The authored order, with a warning. -/
  unknown : Flow OrderMode := do
    Flow.log (.unknownOrderMode mode)
    pure .sequential

/-- The different group keys that are given, in the order of their first appearance. -/
def groupKeys (items : List Sortable) : List Id :=
  ((items.filter Sortable.isGrouped).map Sortable.groupKey).foldl
    (fun keys k => if k.isAmong keys then keys else keys ++ [k]) []

/-- The ids of the items with a group key. -/
def idsInGroup (items : List Sortable) (key : Id) : List Id :=
  (items.filter fun i => i.groupKey.agrees key).map Sortable.id

/-- The ids of the items without a group key. -/
def ungroupedIds (items : List Sortable) : List Id :=
  (items.filter fun i => !i.isGrouped).map Sortable.id

/-- The shuffled ids of each group, one after the other. -/
def shuffledGroups (items : List Sortable) : List Id → Generator → List Id × Generator
  | [], g => ([], g)
  | key :: r, g =>
    let (ids, g) := g.shuffle (idsInGroup items key)
    let (rest, g) := shuffledGroups items r g
    (ids ++ rest, g)

/-- A grouped order: the groups in random order, each shuffled, then the shuffled rest. -/
def grouped (items : List Sortable) (g : Generator) : List Id × Generator :=
  let (keys, g) := g.shuffle (groupKeys items)
  let (ids, g) := shuffledGroups items keys g
  let (rest, g) := g.shuffle (ungroupedIds items)
  (ids ++ rest, g)

/-- The weight of an item, one unless it is given. -/
def weightOf (i : Sortable) : Except Fault Binary64 :=
  match i.weight with
  | .null => .ok (.ofRatio false 1 1)
  | .bool b => .ok (.ofBool b)
  | .int n =>
    match Binary64.ofInt? n with
    | some x => .ok x
    | none => .error .numberTooLarge
  | .float x => .ok x
  | .text s =>
    match Binary64.ofText? s with
    | some x => .ok x
    | none => .error (.notNumber s)
  | .list _ | .map _ => .error .wrongKind

/-- The sort key of a drawn number `u` and a weight `w`: `u` to the power of `1 / w`. -/
def sortKey (u w : Binary64) : Float := Float.pow u.toFloat (1.0 / w.toFloat)

/-- The ids of the items of positive weight, each with the sort key drawn for it, and the ids of the
others. -/
def withSortKeys :
    List Sortable → Generator → Except Fault (List (Float × Id) × List Id) × Generator
  | [], g => (.ok ([], []), g)
  | i :: r, g =>
    match weightOf i with
    | .error e => (.error e, g)
    | .ok w =>
      if w.isNonpositive then
        let (rest, g) := withSortKeys r g
        (rest.map fun (keyed, others) => (keyed, i.id :: others), g)
      else
        let (u, g) := g.unit
        let (rest, g) := withSortKeys r g
        (rest.map fun (keyed, others) => ((sortKey u w, i.id) :: keyed, others), g)

/-- Keyed ids by decreasing sort key; of equal keys the first comes first. -/
def byFallingKey (keyed : List (Float × Id)) : List Id :=
  (bisectionSort (fun a b => decide (a.1 < b.1)) keyed.reverse).reverse.map Prod.snd

/-- A weighted order: the items of positive weight by decreasing sort key, then the others
shuffled. -/
def weighted (items : List Sortable) (g : Generator) : Except Fault (List Id) × Generator :=
  match withSortKeys items g with
  | (.error e, g) => (.error e, g)
  | (.ok (keyed, others), g) =>
    let (rest, g) := g.shuffle others
    (.ok (byFallingKey keyed ++ rest), g)

/-- Fails unless items can be kept under their group keys. -/
def demandGroups (items : List Sortable) : Except Fault Unit :=
  demandKeys ((items.filter Sortable.isGrouped).map Sortable.groupKey)

/-- A new order. -/
def fresh (weighting : Weighting) (mode : OrderMode) (items : List Sortable) (g : Generator) :
    Except Fault (List Id) × Generator :=
  let ids := items.map Sortable.id
  match mode, weighting with
  | .sequential, _ => (.ok ids, g)
  | .random, _ | .weighted, .shuffled =>
    let (ids, g) := g.shuffle ids
    (.ok ids, g)
  | .groupRandom, _ =>
    match demandGroups items with
    | .error e => (.error e, g)
    | .ok () =>
      let (ids, g) := grouped items g
      (.ok ids, g)
  | .weighted, .sampled => weighted items g

/-- The requested ids that an order does not have yet. -/
def unseen (kept ids : List Id) : List Id := ids.filter fun id => !id.isAmong kept

/-- A kept order restricted to the requested ids, followed by those it does not have. -/
def restricted (kept ids : List Id) : List Id :=
  (kept.filter fun id => id.isAmong ids) ++ unseen kept ids

/-- The ids of the items in display order. -/
def arrange (weighting : Weighting) (scope owner : String) (mode : OrderMode)
    (items : List Sortable) : Flow (List Id) := do
  let ids := items.map Sortable.id
  if mode == .sequential then return ids
  let key := cacheKey scope owner mode
  match (← Flow.session).orders.get? key with
  | none =>
    let order ← Flow.ofResult (← Flow.drawn (fresh weighting mode items))
    Flow.update fun s => { s with orders := s.orders.set key order }
    return order
  | some kept =>
    Flow.log (.orderReused key)
    Flow.demandKeys (ids ++ kept)
    Flow.update fun s => { s with orders := s.orders.set key (kept ++ unseen kept ids) }
    return restricted kept ids

end Order

end Questionnaire
