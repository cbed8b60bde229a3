import Questionnaire.Session.Plan

/-!
# Cursors of loop plans

The plans that are made here have a natural number for a cursor, at most the number of items
(`LoopPlan.CursorAt`). For such a plan every operation has a plain reading: the plan is complete
when the cursor is at the number of items, it shows the item at the cursor, or the last one once it
is complete, and no operation moves the cursor out of its range.
-/

namespace Questionnaire.LoopPlan

variable {p : LoopPlan} {c n : Nat} {live : List Id}

/-- A plan whose cursor is at a place from zero to the number of items. -/
structure CursorAt (p : LoopPlan) (c : Nat) : Prop where
  cursor : p.cursor = .int c
  le_length : c ≤ p.items.length

theorem CursorAt.unique (hc : p.CursorAt c) (hn : p.CursorAt n) : c = n := by
  have heq : Value.int c = .int n := hc.cursor.symm.trans hn.cursor
  exact Int.natCast_inj.1 (Value.int.inj heq)

/-- The plan with its cursor at a place. -/
def moved (p : LoopPlan) (c : Nat) : LoopPlan := { p with cursor := .int c }

@[simp] theorem moved_items (p : LoopPlan) (c : Nat) : (p.moved c).items = p.items := rfl

@[simp] theorem moved_batteryId (p : LoopPlan) (c : Nat) : (p.moved c).batteryId = p.batteryId :=
  rfl

@[simp] theorem moved_moved (p : LoopPlan) (c n : Nat) : (p.moved c).moved n = p.moved n := rfl

theorem cursorAt_moved (h : c ≤ p.items.length) : (p.moved c).CursorAt c := ⟨rfl, h⟩

theorem CursorAt.eq_moved (h : p.CursorAt c) : p = p.moved c := by
  rw [moved, ← h.cursor]

theorem isCompleteAt_int (p : LoopPlan) (c : Nat) :
    p.isCompleteAt (.int c) = .ok (decide (p.items.length ≤ c)) := by
  simp [isCompleteAt]

theorem CursorAt.isComplete (h : p.CursorAt c) :
    p.isComplete = .ok (decide (p.items.length ≤ c)) := by
  rw [LoopPlan.isComplete, h.cursor, isCompleteAt_int]

/-- The plan of a battery without items has its cursor at zero. -/
theorem cursorAt_skipped (id : Id) : (skipped id).CursorAt 0 := ⟨rfl, Nat.le_refl 0⟩

/-- A plan that is not complete advances by one item. -/
theorem CursorAt.advance (h : p.CursorAt c) (hlt : c < p.items.length) :
    p.advance = .ok (p.moved (c + 1)) := by
  simp only [LoopPlan.advance, h.isComplete, bind, Except.bind, decide_eq_false (by omega :
    ¬p.items.length ≤ c)]
  rw [h.cursor]
  rfl

theorem itemAt_int (hlt : c < p.items.length) : p.itemAt (.int c) = .ok p.items[c] := by
  simp [itemAt, itemAt?, hlt]

/-- The item shown: the one at the cursor, or the last one if the cursor is behind it. -/
theorem displayIndex_of_cursor (h : p.cursor = .int c) (hne : p.items ≠ []) :
    p.displayIndex = .ok (some (.int (min c (p.items.length - 1) : Nat))) := by
  have hpos := List.length_pos_iff.2 hne
  have hmin : min (c : Int) ((p.items.length : Int) - 1) = (min c (p.items.length - 1) : Nat) := by
    omega
  simp [LoopPlan.displayIndex, h, hne, hmin]

theorem CursorAt.displayIndex (h : p.CursorAt c) (hne : p.items ≠ []) :
    p.displayIndex = .ok (some (.int (min c (p.items.length - 1) : Nat))) :=
  displayIndex_of_cursor h.cursor hne

/-- A plan with items shows one of them. -/
theorem iteration_of_cursor (h : p.cursor = .int c) (hn : n = min c (p.items.length - 1))
    (hlt : n < p.items.length) :
    p.iteration = .ok (some ⟨p.batteryId, p.items[n], .int n, .int p.items.length⟩) := by
  have hne : p.items ≠ [] := List.ne_nil_of_length_pos (Nat.zero_lt_of_lt hlt)
  simp only [LoopPlan.iteration, displayIndex_of_cursor h hne, ← hn, bind, Except.bind,
    itemAt_int hlt]

theorem CursorAt.iteration (h : p.CursorAt c) (hn : n = min c (p.items.length - 1))
    (hlt : n < p.items.length) :
    p.iteration = .ok (some ⟨p.batteryId, p.items[n], .int n, .int p.items.length⟩) :=
  iteration_of_cursor h.cursor hn hlt

/-- A plan without items shows nothing. -/
theorem iteration_of_items_eq_nil (h : p.items = []) : p.iteration = .ok none := by
  simp [iteration, displayIndex, h, bind, Except.bind]

/-- What a plan shows can be told. -/
theorem CursorAt.exists_iteration (h : p.CursorAt c) : ∃ i, p.iteration = .ok i := by
  by_cases hne : p.items = []
  · exact ⟨none, iteration_of_items_eq_nil hne⟩
  · have hpos := List.length_pos_iff.2 hne
    exact ⟨_, h.iteration rfl (by omega)⟩

theorem CursorAt.hasNext (h : p.CursorAt c) :
    p.hasNext = .ok (decide (c + 1 < p.items.length)) := by
  have hs : p.cursor.stepped 1 = .ok (.int (c + 1)) := by rw [h.cursor]; rfl
  simp only [LoopPlan.hasNext, hs, bind, Except.bind, Value.less_int]
  exact congrArg _ (decide_eq_decide.2 (by omega))

/-- Stepping back leads one item before the one shown, if there is one. -/
theorem rewind_of_cursor (h : p.cursor = .int c) :
    p.rewind = .ok (if min c (p.items.length - 1) = 0 then none
      else some (p.moved (min c (p.items.length - 1) - 1))) := by
  by_cases hne : p.items = []
  · simp [LoopPlan.rewind, LoopPlan.displayIndex, hne, bind, Except.bind]
  · simp only [LoopPlan.rewind, displayIndex_of_cursor h hne, bind, Except.bind]
    by_cases hz : min c (p.items.length - 1) = 0
    · simp [hz, Value.isTruthy]
    · have hs : (Value.int (min c (p.items.length - 1) : Nat)).shifted (-1) =
          .int (min c (p.items.length - 1) - 1 : Nat) := by
        simp only [Value.shifted, Value.int.injEq]
        omega
      have ht : (Value.int (min c (p.items.length - 1) : Nat)).isTruthy = true := by
        simp only [Value.isTruthy, bne_iff_ne]
        omega
      rw [if_neg hz, if_pos ht, hs]
      rfl

theorem CursorAt.rewind (h : p.CursorAt c) :
    p.rewind = .ok (if min c (p.items.length - 1) = 0 then none
      else some (p.moved (min c (p.items.length - 1) - 1))) :=
  rewind_of_cursor h.cursor

/-! ## Items before the one shown -/

/-- The items before the one that is shown. -/
def earlier (p : LoopPlan) : List LoopItem :=
  match p.displayIndex with
  | .ok (some (.int i)) => p.items.take i.toNat
  | _ => []

theorem earlier_of_cursor (h : p.cursor = .int c) :
    p.earlier = p.items.take (min c (p.items.length - 1)) := by
  by_cases hne : p.items = []
  · simp [earlier, LoopPlan.displayIndex, hne]
  · simp only [earlier, displayIndex_of_cursor h hne, Int.toNat_natCast]

/-- At the first item there is no stepping back. -/
theorem rewind_of_earlier_nil (h : p.cursor = .int c) (hnil : p.earlier = []) :
    p.rewind = .ok none := by
  have hz : min c (p.items.length - 1) = 0 := by
    have hlen := congrArg List.length ((earlier_of_cursor h).symm.trans hnil)
    rw [List.length_take, List.length_nil] at hlen
    omega
  rw [rewind_of_cursor h, if_pos hz]

/-- Stepping back leads to the item directly before the one shown. -/
theorem rewind_of_earlier (h : p.cursor = .int c) {before : List LoopItem} {item : LoopItem}
    (hearlier : p.earlier = before ++ [item]) :
    p.rewind = .ok (some (p.moved before.length)) ∧ (p.moved before.length).iteration =
      .ok (some ⟨p.batteryId, item, .int before.length, .int p.items.length⟩) := by
  rw [earlier_of_cursor h] at hearlier
  have hlen := congrArg List.length hearlier
  rw [List.length_take, List.length_append, List.length_singleton] at hlen
  have hlt : before.length < p.items.length := by omega
  have hitem : p.items[before.length] = item := by
    have hget := congrArg (·[before.length]?) hearlier
    simp only [List.getElem?_concat_length] at hget
    rw [List.getElem?_take_of_lt (by omega), List.getElem?_eq_getElem hlt] at hget
    exact Option.some.inj hget
  refine ⟨?_, ?_⟩
  · rw [rewind_of_cursor h, if_neg (by omega)]
    simp only [show min c (p.items.length - 1) - 1 = before.length by omega]
  · have hcursor : (p.moved before.length).CursorAt before.length := cursorAt_moved (by omega)
    have hiteration := hcursor.iteration (n := before.length)
      (by rw [moved_items]; omega) hlt
    simp only [moved_items, hitem] at hiteration
    exact hiteration

/-! ## Passing over stale items -/

/-- The way over stale items stays within the items. -/
theorem passageFrom_cursor (p : LoopPlan) (live : List Id) :
    ∀ fuel c : Nat, c ≤ p.items.length →
      ∃ n : Nat, (p.passageFrom live fuel (.int c)).cursor = .int n ∧ c ≤ n ∧ n ≤ p.items.length
  | 0, c, h => ⟨c, rfl, Nat.le_refl c, h⟩
  | fuel + 1, c, h => by
    simp only [passageFrom]
    split
    · exact ⟨c, rfl, Nat.le_refl c, h⟩
    · exact ⟨c, rfl, Nat.le_refl c, h⟩
    · next key hkey =>
      have hlt : c < p.items.length := by
        rcases Nat.lt_or_ge c p.items.length with hlt | hge
        · exact hlt
        · simp [staleKey, isCompleteAt_int, hge, bind, Except.bind] at hkey
      obtain ⟨n, hn, hle, hlen⟩ := passageFrom_cursor p live fuel (c + 1) hlt
      exact ⟨n, hn, by omega, hlen⟩

theorem CursorAt.passage (h : p.CursorAt c) (live : List Id) :
    ∃ n : Nat, (p.passage live).cursor = .int n ∧ c ≤ n ∧ n ≤ p.items.length := by
  rw [LoopPlan.passage, h.cursor]
  exact passageFrom_cursor p live _ c h.le_length

/-- The place of the first live item from a place on; the number of items if none is live. -/
def firstLive (p : LoopPlan) (live : List Id) (c : Nat) : Nat :=
  c + (p.items.drop c).findIdx fun item => item.key.isAmong live

/-- The keys of the items from a place on up to the first live one. -/
def staleFrom (p : LoopPlan) (live : List Id) (c : Nat) : List Id :=
  ((p.items.drop c).takeWhile fun item => !item.key.isAmong live).map LoopItem.key

theorem le_firstLive : c ≤ p.firstLive live c := Nat.le_add_right _ _

theorem firstLive_le (hc : c ≤ p.items.length) : p.firstLive live c ≤ p.items.length := by
  have hle : (p.items.drop c).findIdx (fun item => item.key.isAmong live) ≤
      (p.items.drop c).length := List.findIdx_le_length
  rw [List.length_drop] at hle
  unfold firstLive
  omega

theorem firstLive_lt_iff (hc : c ≤ p.items.length) : p.firstLive live c < p.items.length ↔
    ∃ item ∈ p.items.drop c, item.key.isAmong live = true := by
  rw [← List.findIdx_lt_length, List.length_drop, firstLive]
  omega

/-- The way over stale items leads to the first live one and passes over those before it. -/
theorem passageFrom_eq (hkeys : ∀ item ∈ p.items, item.key.isCompound = false) :
    ∀ fuel c : Nat, c ≤ p.items.length → p.items.length - c < fuel →
      p.passageFrom live fuel (.int c) = ⟨.int (p.firstLive live c), p.staleFrom live c, none⟩
  | 0, c, _, hfuel => by omega
  | fuel + 1, c, hc, hfuel => by
    rcases Nat.lt_or_ge c p.items.length with hlt | hge
    · have hdrop := List.drop_eq_getElem_cons hlt
      have hkey : p.staleKey live (.int c) =
          .ok (if p.items[c].key.isAmong live then none else some p.items[c].key) := by
        simp [staleKey, isCompleteAt_int, Nat.not_le.2 hlt, itemAt_int hlt, demandKeys,
          hkeys _ (List.getElem_mem hlt), bind, Except.bind]
      cases hlive : p.items[c].key.isAmong live with
      | true =>
        rw [hlive, if_pos rfl] at hkey
        simp only [passageFrom, hkey, firstLive, staleFrom, hdrop, List.findIdx_cons, hlive,
          List.takeWhile_cons, Bool.not_true, cond_true, Nat.add_zero]
        rfl
      | false =>
        rw [hlive, if_neg Bool.false_ne_true] at hkey
        have ih := passageFrom_eq hkeys fuel (c + 1) hlt (by omega)
        have hnext : (Value.int c).shifted 1 = .int (c + 1 : Nat) := rfl
        simp only [passageFrom, hkey, hnext, ih, firstLive, staleFrom, hdrop, List.findIdx_cons,
          hlive, List.takeWhile_cons, Bool.not_false, cond_false, if_true, List.map_cons,
          Nat.add_assoc, Nat.add_comm 1]
    · have hdrop : p.items.drop c = [] := List.drop_eq_nil_of_le hge
      simp [passageFrom, staleKey, isCompleteAt_int, hge, firstLive, staleFrom, hdrop, bind,
        Except.bind]

theorem CursorAt.passage_eq (h : p.CursorAt c)
    (hkeys : ∀ item ∈ p.items, item.key.isCompound = false) :
    p.passage live = ⟨.int (p.firstLive live c), p.staleFrom live c, none⟩ := by
  have hwhole : (Value.int c).wholePart = c := rfl
  have hle := h.le_length
  rw [LoopPlan.passage, h.cursor, hwhole]
  exact passageFrom_eq hkeys _ c hle (by omega)

/-- An item is the next live one behind a place: it is live, and no item between is. -/
structure NextLive (p : LoopPlan) (live : List Id) (c j : Nat) (item : LoopItem) : Prop where
  lt : c < j
  found : p.items[j]? = some item
  isLive : item.key.isAmong live = true
  least : ∀ k other, c < k → k < j → p.items[k]? = some other → other.key.isAmong live = false

theorem NextLive.firstLive_eq {j : Nat} {item : LoopItem} (h : p.NextLive live c j item) :
    p.firstLive live (c + 1) = j := by
  obtain ⟨hlt, hitem⟩ := List.getElem?_eq_some_iff.1 h.found
  have hle := h.lt
  have hidx : j - (c + 1) < (p.items.drop (c + 1)).length := by
    rw [List.length_drop]
    omega
  have hfind : (p.items.drop (c + 1)).findIdx (fun item => item.key.isAmong live) =
      j - (c + 1) := by
    refine (List.findIdx_eq hidx).2 ⟨?_, fun k hk => ?_⟩
    · simp only [List.getElem_drop, show c + 1 + (j - (c + 1)) = j by omega, hitem, h.isLive]
    · rw [List.getElem_drop]
      exact h.least (c + 1 + k) _ (by omega) (by omega) (List.getElem?_eq_getElem (by omega))
  rw [firstLive, hfind]
  omega

/-- Where no item is live the end is the next place to stop. -/
theorem firstLive_of_stale (hc : c ≤ p.items.length)
    (hstale : ∀ item ∈ p.items.drop c, item.key.isAmong live = false) :
    p.firstLive live c = p.items.length := by
  refine Nat.le_antisymm (firstLive_le hc) (Nat.le_of_not_lt fun hlt => ?_)
  obtain ⟨item, hitem, hlive⟩ := (firstLive_lt_iff hc).1 hlt
  rw [hstale item hitem] at hlive
  cases hlive

/-- A cursor at a live item, or behind the last one, stays. -/
theorem firstLive_of_live (hlive : ∀ item, p.items[c]? = some item → item.key.isAmong live = true) :
    p.firstLive live c = c ∧ p.staleFrom live c = [] := by
  unfold firstLive staleFrom
  rcases Nat.lt_or_ge c p.items.length with hlt | hge
  · have hitem := hlive _ (List.getElem?_eq_getElem hlt)
    rw [List.drop_eq_getElem_cons hlt, List.findIdx_cons, List.takeWhile_cons, hitem]
    exact ⟨rfl, rfl⟩
  · rw [List.drop_eq_nil_of_le hge]
    exact ⟨rfl, rfl⟩

/-! ## Integer cursors

A cursor that is an integer may be before the first item. It counts from the end then, and one that
points before the first item is stopped by a fault.
-/

section Integer
variable {z : Int} {fault : Option Fault}

theorem isComplete_of_int (h : p.cursor = .int z) :
    p.isComplete = .ok (decide ((p.items.length : Int) ≤ z)) := by
  rw [isComplete, h]
  rfl

/-- A plan without items that is not complete has a cursor that points to no item. -/
theorem staleKey_of_items_nil (hnil : p.items = []) (hz : z < 0) (live : List Id) :
    p.staleKey live (.int z) = .error .noSuchItem := by
  have hcomplete : p.isCompleteAt (.int z) = .ok false := by simp [isCompleteAt, hnil, hz]
  have hitem : p.itemAt (.int z) = .error .noSuchItem := by
    simp [itemAt, itemAt?, hnil, Int.not_le.2 hz]
  rw [staleKey, hcomplete]
  simp only [bind, Except.bind, hitem, Bool.false_eq_true, if_false]

/-- A cursor is stopped where there is no stale item: by a live one, by the end or by a fault. -/
theorem passageFrom_stops (p : LoopPlan) (live : List Id) : ∀ (fuel : Nat) (z : Int),
    (p.items.length : Int) - z < fuel → ∃ n : Int,
      (p.passageFrom live fuel (.int z)).cursor = .int n ∧
      p.staleKey live (.int n) = (p.passageFrom live fuel (.int z)).fault.elim (.ok none) .error
  | 0, z, hfuel => by
    refine ⟨z, rfl, ?_⟩
    have hcomplete : p.isCompleteAt (.int z) = .ok true := by
      simp only [isCompleteAt, Except.ok.injEq, decide_eq_true_eq]
      omega
    rw [staleKey, hcomplete]
    rfl
  | fuel + 1, z, hfuel => by
    simp only [passageFrom]
    split
    · next e hkey => exact ⟨z, rfl, hkey⟩
    · next hkey => exact ⟨z, rfl, hkey⟩
    · exact passageFrom_stops p live fuel (z + 1) (by omega)

theorem passage_stops (h : p.cursor = .int z) (live : List Id) : ∃ n : Int,
    (p.passage live).cursor = .int n ∧
      p.staleKey live (.int n) = (p.passage live).fault.elim (.ok none) .error := by
  rw [passage, h]
  refine passageFrom_stops p live _ z ?_
  have hwhole : (Value.int z).wholePart = z := rfl
  omega

/-- What stopped a cursor stops it again. -/
theorem passage_of_stopped (h : p.cursor = .int z) (hopen : p.isComplete = .ok false)
    (hstop : p.staleKey live (.int z) = fault.elim (.ok none) .error) :
    p.passage live = ⟨p.cursor, [], fault⟩ := by
  have hlt : ¬(p.items.length : Int) ≤ z := by
    rw [isComplete_of_int h] at hopen
    simpa using hopen
  have hfuel : ((p.items.length : Int) - z + 1).toNat = ((p.items.length : Int) - z).toNat + 1 := by
    omega
  have hwhole : (Value.int z).wholePart = z := rfl
  rw [passage, h, hwhole, hfuel, passageFrom, hstop]
  cases fault <;> rfl

end Integer

end Questionnaire.LoopPlan
