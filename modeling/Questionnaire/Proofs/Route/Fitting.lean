import Mathlib.Data.List.Pairwise
import Mathlib.Data.List.Perm.Subperm
import Questionnaire.Proofs.Flow
import Questionnaire.Proofs.Session.Cursor
import Questionnaire.Route.Planning

/-!
# Plans that fit the answers

A new plan takes the first of the source items of its battery, or of a permutation of them, as many
as the battery allows (`Planning.newPlan_takes`). A plan fits its battery when its items are source
items of the battery under the present answers, each at most as often as there, and as many of them
as the battery allows (`Battery.Fits`). So a plan fits when it is made, and then wherever its cursor
is moved among its items. In a fitted session all plans fit (`Session.Fitted`).
-/

namespace Questionnaire

open Flow

/-- How many of a number of items a battery takes: a limit below one is none. -/
def Battery.planSize (b : Battery) (n : Nat) : Nat :=
  match b.maxItems with
  | .int m => if 0 < m then min m.toNat n else n
  | .bool true => min 1 n
  | _ => n

/-- A new plan of a battery that chooses from some items. It takes the first of them that the
battery allows, in their order or, if they are randomized, in any order. -/
structure Battery.Takes (b : Battery) (items : List LoopItem) (p : LoopPlan) : Prop where
  batteryId : p.batteryId = b.id
  cursor : p.cursor = .int 0
  items : ∃ drawn : List LoopItem, drawn.Perm items ∧ (b.isRandomized = false → drawn = items) ∧
    p.items = drawn.take (b.planSize items.length)

/-- A plan that fits a battery and the answers. -/
structure Battery.Fits (b : Battery) (survey : Survey) (responses : Register Value)
    (p : LoopPlan) : Prop where
  batteryId : p.batteryId = b.id
  cursor : ∃ c, p.CursorAt c
  items : p.items.Subperm (Planning.sourceItems b survey responses)
  size : p.items.length = b.planSize (Planning.sourceItems b survey responses).length

/-- A battery with items to choose from takes at least one. -/
theorem Battery.planSize_eq_zero (b : Battery) {n : Nat} : b.planSize n = 0 ↔ n = 0 := by
  unfold planSize
  split
  · split <;> omega
  · omega
  · rfl

theorem Battery.planSize_le (b : Battery) (n : Nat) : b.planSize n ≤ n := by
  unfold planSize
  split
  · split <;> omega
  · omega
  · exact Nat.le_refl n

/-- A new plan fits. -/
theorem Battery.Takes.fits {b : Battery} {survey : Survey} {responses : Register Value}
    {p : LoopPlan} (h : b.Takes (Planning.sourceItems b survey responses) p) :
    b.Fits survey responses p := by
  obtain ⟨drawn, hperm, -, hitems⟩ := h.items
  refine ⟨h.batteryId, ⟨0, h.cursor, Nat.zero_le _⟩, ?_, ?_⟩
  · rw [hitems]
    exact (List.take_sublist _ _).subperm.trans hperm.subperm
  · rw [hitems, List.length_take, hperm.length_eq, Nat.min_eq_left (b.planSize_le _)]

/-- A plan that fits is without items only if there are none to choose from. -/
theorem Battery.Fits.items_eq_nil_iff {b : Battery} {survey : Survey} {responses : Register Value}
    {p : LoopPlan} (h : b.Fits survey responses p) :
    p.items = [] ↔ Planning.sourceItems b survey responses = [] := by
  rw [← List.length_eq_zero_iff, h.size, b.planSize_eq_zero, List.length_eq_zero_iff]

namespace Planning

variable {b : Battery} {survey : Survey} {responses : Register Value}

/-- A limit that a battery has keeps the first items. -/
theorem limited_eq_take {limit : Option Nat} (h : limit? b = .ok limit) {α : Type} (l : List α) :
    limited limit l = l.take (b.planSize l.length) := by
  unfold limit? at h
  unfold Battery.planSize
  cases hb : b.maxItems with
  | null => rw [hb] at h; cases h; simp [limited]
  | bool yes => rw [hb] at h; cases yes <;> cases h <;> simp [limited, List.take_eq_take_iff]
  | int n =>
    simp only [hb, Except.ok.injEq] at h
    subst h
    by_cases hn : 0 < n <;> simp [hn, limited, List.take_eq_take_iff]
  | float x =>
    simp only [hb] at h
    split at h <;> cases h
    simp [limited]
  | text _ | list _ | map _ => rw [hb] at h; cases h

/-- A battery without source items is given the plan without items. -/
theorem fits_skipped (h : sourceItems b survey responses = []) :
    b.Fits survey responses (.skipped b.id) where
  batteryId := rfl
  cursor := ⟨0, LoopPlan.cursorAt_skipped b.id⟩
  items := List.nil_subperm
  size := by
    rw [h]
    unfold Battery.planSize
    split <;> simp [LoopPlan.skipped]

/-- A new plan takes the first of the source items; there is none only if there are no source
items. -/
theorem newPlan_takes (P : Session → Prop) :
    Ensures P (newPlan b survey responses) fun o s => P s ∧
      match o with
      | none => sourceItems b survey responses = []
      | some p => b.Takes (sourceItems b survey responses) p ∧
          sourceItems b survey responses ≠ [] := by
  unfold newPlan
  refine .bind Keeps.logAll fun _ => ?_
  refine .bind Keeps.ofResult fun _ => ?_
  refine .ite (fun hempty => ?_) fun hne => ?_
  · refine .bind Keeps.log fun _ => .pure fun s h => ⟨h, ?_⟩
    simpa using hempty
  have hne : sourceItems b survey responses ≠ [] := by simpa using hne
  -- The same work follows on the shuffled and on the authored items.
  have hrest : ∀ drawn : List LoopItem, Ensures
      (fun s => P s ∧ drawn.Perm (sourceItems b survey responses) ∧
        (b.isRandomized = false → drawn = sourceItems b survey responses))
      (do
        let items := limited (← ofResult (limit? b)) drawn
        log (.planned b.id items.length)
        Pure.pure (some ⟨b.id, items, .int 0⟩))
      fun o s => P s ∧
        match o with
        | none => sourceItems b survey responses = []
        | some p => b.Takes (sourceItems b survey responses) p ∧
            sourceItems b survey responses ≠ [] := by
    intro drawn
    refine .bind .ofResult fun limit => .bind Keeps.log fun _ => .pure fun s h => ?_
    obtain ⟨⟨hs, hperm, hauthored⟩, hlimit⟩ := h
    refine ⟨hs, ⟨rfl, rfl, drawn, hperm, hauthored, ?_⟩, hne⟩
    rw [← hperm.length_eq]
    exact limited_eq_take hlimit drawn
  refine .ite (fun hrandom => .bind ?_ hrest) fun _ =>
    .bind (.pure fun s h => ⟨h, .refl _, fun _ => rfl⟩) hrest
  refine Ensures.drawn.mono (fun _ h => h) fun drawn s h => ⟨h.1, ?_, fun hauthored => ?_⟩
  · obtain ⟨g, rfl⟩ := h.2
    exact Generator.shuffle_perm _ g
  · rw [hauthored] at hrandom
    cases hrandom

/-- A new plan fits; there is none only if there are no source items. -/
theorem newPlan_ensures (P : Session → Prop) :
    Ensures P (newPlan b survey responses) fun o s => P s ∧
      match o with
      | none => sourceItems b survey responses = []
      | some p => b.Fits survey responses p ∧ sourceItems b survey responses ≠ [] := by
  refine (newPlan_takes P).mono (fun _ h => h) ?_
  rintro (_ | p) s ⟨hs, hplan⟩
  · exact ⟨hs, hplan⟩
  · exact ⟨hs, hplan.1.fits, hplan.2⟩

end Planning

/-! ## Sessions whose plans fit -/

/-- No two batteries of a survey have ids that agree. -/
def Survey.BatteriesApart (survey : Survey) : Prop :=
  survey.batteries.Pairwise fun b c => b.id.agrees c.id = false

/-- A session whose plans fit its answers. -/
def Session.Fitted (survey : Survey) (s : Session) : Prop :=
  ∀ b ∈ survey.batteries, ∀ p, s.plan? b.id = some p → b.Fits survey s.responses p

section
variable {survey : Survey} {responses : Register Value} {s : Session} {b : Battery} {p : LoopPlan}

theorem Survey.BatteriesApart.eq (h : survey.BatteriesApart) {b c : Battery}
    (hb : b ∈ survey.batteries) (hc : c ∈ survey.batteries) (hbc : b.id.agrees c.id = true) :
    b = c := by
  by_contra hne
  have : Std.Symm fun b c : Battery => b.id.agrees c.id = false :=
    ⟨fun b c h => (Value.agrees_comm c.id b.id).trans h⟩
  have := List.Pairwise.forall h hb hc hne
  rw [hbc] at this
  cases this

theorem Session.plan?_setPlan (s : Session) (id j : Id) (p : LoopPlan) :
    (s.setPlan id p).plan? j = if j.agrees id then some p else s.plan? j :=
  Register.get?_set s.plans id j p

theorem Session.plan?_setPlan_self (s : Session) (id : Id) (p : LoopPlan) :
    (s.setPlan id p).plan? id = some p := by
  rw [plan?_setPlan, if_pos (Value.agrees_self id)]

theorem Session.plan?_dropPlan (s : Session) (id j : Id) :
    (s.dropPlan id).plan? j = if j.agrees id then none else s.plan? j :=
  Register.get?_erase s.plans id j

/-- A plan with the items of one that fits, and its cursor among them, fits. -/
theorem Battery.Fits.moved (h : b.Fits survey responses p) {c : Nat} (hc : c ≤ p.items.length) :
    b.Fits survey responses (p.moved c) :=
  ⟨h.batteryId, ⟨c, LoopPlan.cursorAt_moved hc⟩, h.items, h.size⟩

/-- The keys of the items that a battery has under the answers: an item with another key is
stale. -/
abbrev Planning.liveKeys (b : Battery) (survey : Survey) (responses : Register Value) : List Id :=
  (Planning.sourceItems b survey responses).map LoopItem.key

/-- No item of a plan that fits is stale. -/
theorem Battery.Fits.isAmong (h : b.Fits survey responses p) {item : LoopItem}
    (hitem : item ∈ p.items) :
    item.key.isAmong (Planning.liveKeys b survey responses) = true :=
  List.any_eq_true.2
    ⟨item.key, List.mem_map_of_mem (h.items.subset hitem), Value.agrees_self _⟩

/-- So the cursor of a plan that fits passes over nothing. -/
theorem Battery.Fits.passage (h : b.Fits survey responses p)
    (hkeys : ∀ item ∈ Planning.sourceItems b survey responses, item.key.isCompound = false) :
    p.passage (Planning.liveKeys b survey responses) = ⟨p.cursor, [], none⟩ := by
  obtain ⟨c, hc⟩ := h.cursor
  have hlive := LoopPlan.firstLive_of_live fun item (hitem : p.items[c]? = some item) =>
    h.isAmong (List.mem_of_getElem? hitem)
  rw [hc.passage_eq fun item hitem => hkeys item (h.items.subset hitem), hlive.1, hlive.2,
    hc.cursor]

/-- A plan fits any answers under which the source items are the same, in whatever order. -/
theorem Battery.Fits.of_perm {responses' : Register Value} (h : b.Fits survey responses p)
    (hperm : (Planning.sourceItems b survey responses).Perm
      (Planning.sourceItems b survey responses')) : b.Fits survey responses' p :=
  ⟨h.batteryId, h.cursor, h.items.trans hperm.subperm, hperm.length_eq ▸ h.size⟩

/-- Nothing but the plans and the answers matters to whether the plans fit. -/
theorem Session.Fitted.same {t : Session} (h : s.Fitted survey) (hplans : t.plans = s.plans)
    (hresponses : t.responses = s.responses) : t.Fitted survey := by
  intro b hb p hp
  rw [plan?, hplans] at hp
  rw [hresponses]
  exact h b hb p hp

/-- A fitting plan of a battery keeps a session fitted. -/
theorem Session.Fitted.setPlan (h : s.Fitted survey) (hapart : survey.BatteriesApart)
    (hb : b ∈ survey.batteries) (hp : b.Fits survey s.responses p) :
    (s.setPlan b.id p).Fitted survey := by
  intro c hc q hq
  rw [plan?_setPlan] at hq
  split at hq
  · next hagree =>
    cases hq
    cases hapart.eq hc hb hagree
    exact hp
  · exact h c hc q hq

end

end Questionnaire
