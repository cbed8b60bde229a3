import Questionnaire.Value.Place

/-!
# Sorted lists

Parts of a survey are shown by index and names are listed in alphabetical order. Sorting is stable:
elements with equal keys keep their order. `sortedBy_perm` says that nothing is lost or added, and
`pairwise_sortedBy` that the places of indexes that have one do not fall.

Indexes and drawn sort keys may fail to be numbers, and then no order of the elements need be the
sorted one. Such lists are sorted by bisection: the run at the start of the list is kept, and each
further element is put where a search by halves finds its place (`bisectionSort`). That decides the
order for any comparison, and `bisectionSort_perm` says that nothing is lost or added.
-/

namespace Questionnaire

/-- Texts in increasing order. -/
def sortedTexts (l : List String) : List String := l.mergeSort fun a b => decide (a ≤ b)

/-! ## Sorting by bisection -/

section Bisection

variable {α : Type} (less : α → α → Bool)

/-- The elements after `a` that go on a run that does not fall, and the rest of the list. -/
def ascent (a : α) : List α → List α × List α
  | [] => ([], [])
  | b :: r =>
    if less b a then ([], b :: r)
    else (b :: (ascent b r).1, (ascent b r).2)

/-- The elements after `a` that go on a falling run, and the rest of the list. -/
def descent (a : α) : List α → List α × List α
  | [] => ([], [])
  | b :: r =>
    if less b a then (b :: (descent b r).1, (descent b r).2)
    else ([], b :: r)

/-- The run at the start of a list, put in rising order if it falls, and the rest of the list. -/
def initialRun : List α → List α × List α
  | [] => ([], [])
  | a :: r =>
    if (r.head?).any fun b => less b a then
      ((a :: (descent less a r).1).reverse, (descent less a r).2)
    else (a :: (ascent less a r).1, (ascent less a r).2)

/-- The place of an element among those from `low` up to `high`, found by halves; `fuel` bounds the
number of steps. -/
def bisection (x : α) (l : List α) : Nat → Nat → Nat → Nat
  | 0, low, _ => low
  | fuel + 1, low, high =>
    if low < high then
      let middle := low + (high - low) / 2
      if (l[middle]?).any fun y => less x y then bisection x l fuel low middle
      else bisection x l fuel (middle + 1) high
    else low

/-- A list with an element put in its place. -/
def insertBisected (l : List α) (x : α) : List α :=
  let n := bisection less x l (l.length + 1) 0 l.length
  l.take n ++ x :: l.drop n

/-- A list sorted by bisection. -/
def bisectionSort (l : List α) : List α :=
  (initialRun less l).2.foldl (insertBisected less) (initialRun less l).1

theorem ascent_append (a : α) : ∀ l : List α, (ascent less a l).1 ++ (ascent less a l).2 = l
  | [] => rfl
  | b :: r => by
    unfold ascent
    split
    · rfl
    · simp [ascent_append b r]

theorem descent_append (a : α) : ∀ l : List α, (descent less a l).1 ++ (descent less a l).2 = l
  | [] => rfl
  | b :: r => by
    unfold descent
    split
    · simp [descent_append b r]
    · rfl

theorem initialRun_perm (l : List α) :
    ((initialRun less l).1 ++ (initialRun less l).2).Perm l := by
  cases l with
  | nil => exact .refl _
  | cons a r =>
    by_cases h : ((r.head?).any fun b => less b a) = true
    · simp only [initialRun, if_pos h]
      refine ((List.reverse_perm _).append_right _).trans ?_
      simp [descent_append]
    · simp [initialRun, if_neg h, ascent_append]

theorem insertBisected_perm (l : List α) (x : α) : (insertBisected less l x).Perm (x :: l) := by
  refine List.perm_middle.trans ?_
  rw [List.take_append_drop]

theorem foldl_insertBisected_perm :
    ∀ l acc : List α, (l.foldl (insertBisected less) acc).Perm (acc ++ l)
  | [], acc => by simp
  | x :: r, acc => by
    refine (foldl_insertBisected_perm r _).trans ?_
    exact ((insertBisected_perm less acc x).append_right r).trans List.perm_middle.symm

/-- Sorting by bisection loses and adds nothing. -/
theorem bisectionSort_perm (l : List α) : (bisectionSort less l).Perm l :=
  (foldl_insertBisected_perm less _ _).trans (initialRun_perm less l)

end Bisection

/-! ## Sorting by index -/

/-- A list sorted by the indexes of its elements; elements with equal indexes keep their order. -/
def sortedBy {α : Type} (index : α → Value) (l : List α) : List α :=
  if l.all fun a => (index a).isPlaced then
    l.mergeSort fun a b => decide ((index a).place ≤ (index b).place)
  else bisectionSort (fun a b => (index a).less (index b)) l

theorem sortedBy_perm {α : Type} (index : α → Value) (l : List α) :
    (sortedBy index l).Perm l := by
  unfold sortedBy
  split
  · exact List.mergeSort_perm l _
  · exact bisectionSort_perm _ l

/-- The places of a sorted list do not fall if all indexes have one. -/
theorem pairwise_sortedBy {α : Type} (index : α → Value) (l : List α)
    (h : (l.all fun a => (index a).isPlaced) = true) :
    (sortedBy index l).Pairwise fun a b => (index a).place ≤ (index b).place := by
  let key (a : α) : Place := (index a).place
  have trans (a b c : α) (hab : decide (key a ≤ key b) = true)
      (hbc : decide (key b ≤ key c) = true) : decide (key a ≤ key c) = true :=
    decide_eq_true (Place.le_trans (of_decide_eq_true hab) (of_decide_eq_true hbc))
  have total (a b : α) : (decide (key a ≤ key b) || decide (key b ≤ key a)) = true := by
    simpa only [Bool.or_eq_true, decide_eq_true_eq] using Place.le_total (key a) (key b)
  rw [sortedBy, if_pos h]
  exact (List.pairwise_mergeSort trans total l).imp of_decide_eq_true

/-- A list that is in order is sorted. -/
theorem sortedBy_of_pairwise {α : Type} {index : α → Value} {l : List α}
    (h : (l.all fun a => (index a).isPlaced) = true)
    (hl : l.Pairwise fun a b => (index a).place ≤ (index b).place) : sortedBy index l = l := by
  rw [sortedBy, if_pos h]
  exact List.mergeSort_of_pairwise (hl.imp decide_eq_true)

end Questionnaire
