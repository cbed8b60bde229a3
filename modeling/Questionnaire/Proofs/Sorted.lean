import Mathlib.Order.Defs.LinearOrder
import Mathlib.Data.Prod.Lex
import Questionnaire.Sorted

/-!
# Sorting is stable

Elements whose keys have one place stand in a sorted list as they stood before
(`filter_sortedBy`). So a sorted list is in order by the places first, and then by whatever order
the list had (`pairwise_sortedBy_lex`); and two lists are sorted alike that differ only in how
elements with different places stand to each other (`sortedBy_congr`).

Where all keys are integers, this says what sorting does in terms of them alone (`StablySorted`).

Where a list is selected from a longer one, its elements can be sorted together with their positions
in the longer list (`ranked`). They then stand in the order of place and position.
-/

namespace Questionnaire

instance : LinearOrder Place where
  le_refl := Place.le_refl
  le_trans _ _ _ := Place.le_trans
  le_antisymm _ _ := Place.le_antisymm
  le_total := Place.le_total
  lt_iff_le_not_ge p q := ⟨fun h => ⟨(Place.le_total p q).resolve_right h, h⟩, fun h => h.2⟩
  toDecidableLE := inferInstance

variable {α : Type} {index : α → Value} {l m : List α}

/-! ## Elements with one place -/

theorem sortedBy_eq_mergeSort (h : (l.all fun a => (index a).isPlaced) = true) :
    sortedBy index l = l.mergeSort fun a b => decide ((index a).place ≤ (index b).place) := by
  rw [sortedBy, if_pos h]

/-- Elements with one place are left in order. -/
theorem filter_sortedBy (h : (l.all fun a => (index a).isPlaced) = true) (k : Place) :
    (sortedBy index l).filter (fun a => decide ((index a).place = k)) =
      l.filter fun a => decide ((index a).place = k) := by
  let here (a : α) : Bool := decide ((index a).place = k)
  have htrans : ∀ a b c : α, decide ((index a).place ≤ (index b).place) = true →
      decide ((index b).place ≤ (index c).place) = true →
        decide ((index a).place ≤ (index c).place) = true := fun a b c hab hbc =>
    decide_eq_true ((of_decide_eq_true hab).trans (of_decide_eq_true hbc))
  have htotal : ∀ a b : α, (decide ((index a).place ≤ (index b).place) ||
      decide ((index b).place ≤ (index a).place)) = true := fun a b => by
    simpa using le_total (index a).place (index b).place
  have hequal : (l.filter here).Pairwise fun a b =>
      decide ((index a).place ≤ (index b).place) = true :=
    List.Pairwise.imp_of_mem (R := fun _ _ => True) (fun {a b} ha hb _ => by
      have hak : (index a).place = k := of_decide_eq_true (List.mem_filter.1 ha).2
      have hbk : (index b).place = k := of_decide_eq_true (List.mem_filter.1 hb).2
      rw [hak, hbk]
      exact decide_eq_true (le_refl k)) (List.pairwise_of_forall fun _ _ => trivial)
  have hsub : (l.filter here).Sublist ((sortedBy index l).filter here) := by
    have hsorted := (List.sublist_mergeSort htrans htotal hequal List.filter_sublist).filter here
    rwa [List.filter_filter, ← sortedBy_eq_mergeSort h,
      List.filter_congr fun _ _ => Bool.and_self _] at hsorted
  exact (hsub.eq_of_length ((sortedBy_perm index l).filter here).length_eq.symm).symm

/-- A sorted list is in order by places, and elements with one place stand as they stood before. -/
theorem pairwise_sortedBy_lex {R : α → α → Prop}
    (h : (l.all fun a => (index a).isPlaced) = true) (hl : l.Pairwise R) :
    (sortedBy index l).Pairwise fun a b =>
      (index a).place < (index b).place ∨ (index a).place = (index b).place ∧ R a b := by
  refine List.pairwise_iff_forall_sublist.2 fun {a b} hab => ?_
  have hle := List.pairwise_iff_forall_sublist.1 (pairwise_sortedBy index l h) hab
  rcases lt_or_eq_of_le hle with hlt | heq
  · exact .inl hlt
  · refine .inr ⟨heq, ?_⟩
    have hsame := hab.filter fun c => decide ((index c).place = (index b).place)
    rw [filter_sortedBy h, List.filter_cons_of_pos (by simp [heq]),
      List.filter_cons_of_pos (by simp), List.filter_nil] at hsame
    exact List.pairwise_iff_forall_sublist.1 hl (hsame.trans List.filter_sublist)

/-- Lists in order of their places are equal if they have the same elements, in the same order, at
each place. -/
theorem eq_of_filter_place : ∀ {l m : List α},
    l.Pairwise (fun a b => (index a).place ≤ (index b).place) →
    m.Pairwise (fun a b => (index a).place ≤ (index b).place) →
    (∀ k, l.filter (fun a => decide ((index a).place = k)) =
      m.filter fun a => decide ((index a).place = k)) → l = m
  | [], [], _, _, _ => rfl
  | [], b :: m, _, _, h => by
    have hb := h (index b).place
    rw [List.filter_cons_of_pos (by simp)] at hb
    cases hb
  | a :: l, [], _, _, h => by
    have ha := h (index a).place
    rw [List.filter_cons_of_pos (by simp)] at ha
    cases ha
  | a :: l, b :: m, hl, hm, h => by
    obtain ⟨hal, hltail⟩ := List.pairwise_cons.1 hl
    obtain ⟨hbm, hmtail⟩ := List.pairwise_cons.1 hm
    -- The least place is that of the first element, on both sides.
    have hab : (index a).place ≤ (index b).place := by
      have hb : b ∈ (b :: m).filter fun c => decide ((index c).place = (index b).place) :=
        List.mem_filter.2 ⟨.head _, by simp⟩
      rw [← h] at hb
      rcases List.mem_cons.1 (List.mem_filter.1 hb).1 with rfl | hmem
      · exact le_refl _
      · exact hal b hmem
    have hba : (index b).place ≤ (index a).place := by
      have ha : a ∈ (a :: l).filter fun c => decide ((index c).place = (index a).place) :=
        List.mem_filter.2 ⟨.head _, by simp⟩
      rw [h] at ha
      rcases List.mem_cons.1 (List.mem_filter.1 ha).1 with rfl | hmem
      · exact le_refl _
      · exact hbm a hmem
    have hfirst := h (index a).place
    rw [List.filter_cons_of_pos (by simp),
      List.filter_cons_of_pos (by simp [le_antisymm hba hab])] at hfirst
    obtain ⟨rfl, -⟩ := List.cons.inj hfirst
    refine congrArg (a :: ·) (eq_of_filter_place hltail hmtail fun k => ?_)
    have hk := h k
    rw [List.filter_cons, List.filter_cons] at hk
    split at hk
    · exact (List.cons.inj hk).2
    · exact hk

/-- Lists with the same elements, in the same order, at each place are sorted alike. -/
theorem sortedBy_congr (hl : (l.all fun a => (index a).isPlaced) = true)
    (hm : (m.all fun a => (index a).isPlaced) = true)
    (h : ∀ k, l.filter (fun a => decide ((index a).place = k)) =
      m.filter fun a => decide ((index a).place = k)) : sortedBy index l = sortedBy index m := by
  refine @eq_of_filter_place _ index _ _ (pairwise_sortedBy index l hl)
    (pairwise_sortedBy index m hm) fun k => ?_
  rw [filter_sortedBy hl, filter_sortedBy hm, h]

/-- Sorting and selecting can be exchanged. -/
theorem filter_sortedBy_comm (h : (l.all fun a => (index a).isPlaced) = true) (test : α → Bool) :
    (sortedBy index l).filter test = sortedBy index (l.filter test) := by
  have htest : ((l.filter test).all fun a => (index a).isPlaced) = true :=
    List.all_eq_true.2 fun a ha => List.all_eq_true.1 h a (List.mem_filter.1 ha).1
  refine @eq_of_filter_place _ index _ _ ((pairwise_sortedBy index l h).filter test)
    (pairwise_sortedBy index _ htest) fun k => ?_
  rw [filter_sortedBy htest, List.filter_filter, List.filter_filter,
    List.filter_congr fun a _ => Bool.and_comm _ _, ← List.filter_filter, filter_sortedBy h,
    List.filter_filter]
  exact List.filter_congr fun a _ => Bool.and_comm _ _

/-! ## Integers for keys -/

/-- A list in order of the integers that its elements have for keys. It has the elements of another
list, and those with one key stand as they stand there. -/
structure StablySorted (index : α → Value) (l m : List α) : Prop where
  perm : m.Perm l
  rising : m.Pairwise fun a b => (index a).wholePart ≤ (index b).wholePart
  stable : ∀ i : Int, m.filter (fun a => decide (index a = .int i)) =
    l.filter fun a => decide (index a = .int i)

theorem Value.place_int_eq_iff (a b : Int) :
    (Value.int a).place = (Value.int b).place ↔ a = b := by
  rw [le_antisymm_iff, place_int_le_iff, place_int_le_iff]
  exact le_antisymm_iff.symm

theorem stablySorted_sortedBy (h : ∀ a ∈ l, ∃ i, index a = .int i) :
    StablySorted index l (sortedBy index l) := by
  have hplaced : (l.all fun a => (index a).isPlaced) = true := List.all_eq_true.2 fun a ha => by
    obtain ⟨i, hi⟩ := h a ha
    rw [hi]
    rfl
  have hmem : ∀ {a}, a ∈ sortedBy index l → ∃ i, index a = .int i := fun ha =>
    h _ ((sortedBy_perm index l).mem_iff.1 ha)
  have hkey : ∀ i a, (∃ j, index a = .int j) →
      decide ((index a).place = (Value.int i).place) = decide (index a = .int i) := by
    rintro i a ⟨j, hj⟩
    rw [hj, decide_eq_decide, Value.place_int_eq_iff, Value.int.injEq]
  refine ⟨sortedBy_perm index l, ?_, fun i => ?_⟩
  · refine (pairwise_sortedBy index l hplaced).imp_of_mem fun {a b} ha hb hab => ?_
    obtain ⟨⟨i, hi⟩, j, hj⟩ := And.intro (hmem ha) (hmem hb)
    rw [hi, hj] at hab ⊢
    exact (Value.place_int_le_iff i j).1 hab
  · rw [← List.filter_congr fun a ha => hkey i a (hmem ha), filter_sortedBy hplaced,
      List.filter_congr fun a ha => hkey i a (h a ha)]

/-! ## Elements with their positions -/

/-- The elements of a list that pass a test, sorted together with their positions in the list. -/
def ranked (index : α → Value) (test : α → Bool) (l : List α) : List (α × Nat) :=
  sortedBy (fun x => index x.1) (l.zipIdx.filter fun x => test x.1)

variable {test : α → Bool}

/-- The rank of an element at a position: its place comes first, then its position. -/
def rankOf (index : α → Value) (x : α × Nat) : Place ×ₗ Nat := toLex ((index x.1).place, x.2)

theorem mem_ranked {x : α × Nat} :
    x ∈ ranked index test l ↔ l[x.2]? = some x.1 ∧ test x.1 = true := by
  rw [ranked, (sortedBy_perm _ _).mem_iff, List.mem_filter, List.mk_mem_zipIdx_iff_getElem?]

theorem all_zipIdx (h : ((l.filter test).all fun a => (index a).isPlaced) = true) :
    ((l.zipIdx.filter fun x => test x.1).all fun x => (index x.1).isPlaced) = true := by
  refine List.all_eq_true.2 fun x hx => ?_
  obtain ⟨hmem, htest⟩ := List.mem_filter.1 hx
  exact List.all_eq_true.1 h x.1
    (List.mem_filter.2 ⟨List.mem_of_getElem? (List.mk_mem_zipIdx_iff_getElem?.1 hmem), htest⟩)

/-- The ranks of elements with their positions rise. -/
theorem pairwise_ranked (h : ((l.filter test).all fun a => (index a).isPlaced) = true) :
    (ranked index test l).Pairwise fun x y => rankOf index x < rankOf index y := by
  have hpositions : (l.zipIdx.filter fun x => test x.1).Pairwise fun x y => x.2 < y.2 := by
    have hall : (l.zipIdx.map Prod.snd).Pairwise (· < ·) := by
      rw [List.zipIdx_map_snd]
      exact List.pairwise_lt_range'
    exact (List.pairwise_map.1 hall).filter _
  refine (pairwise_sortedBy_lex (all_zipIdx h) hpositions).imp fun {x y} hxy => ?_
  exact Prod.Lex.toLex_lt_toLex.2 hxy

/-- Without their positions, the elements are those that pass the test, sorted. -/
theorem map_ranked (h : ((l.filter test).all fun a => (index a).isPlaced) = true) :
    (ranked index test l).map Prod.fst = sortedBy index (l.filter test) := by
  have hfilter : (l.zipIdx.filter fun x => test x.1).map Prod.fst = l.filter test := by
    conv_rhs => rw [← List.zipIdx_map_fst 0 l, List.filter_map]
    rfl
  rw [ranked, sortedBy_eq_mergeSort (all_zipIdx h), sortedBy_eq_mergeSort h, ← hfilter]
  exact List.map_mergeSort fun _ _ _ _ => rfl

/-! ## The first of a list in order -/

/-- Where keys rise, the first result that a function has on a list is the one at the least key. -/
theorem findSome?_eq_some_iff_of_pairwise {β γ : Type} [LinearOrder γ] {key : α → γ}
    {f : α → Option β} {x : β} : ∀ {l : List α}, l.Pairwise (fun a b => key a < key b) →
      (l.findSome? f = some x ↔
        ∃ a ∈ l, f a = some x ∧ ∀ b ∈ l, (f b).isSome = true → key a ≤ key b)
  | [], _ => by simp
  | a :: l, hl => by
    obtain ⟨hal, hl⟩ := List.pairwise_cons.1 hl
    cases ha : f a with
    | some y =>
      rw [List.findSome?_cons, ha]
      constructor
      · rintro ⟨⟩
        refine ⟨a, .head _, ha, fun b hb _ => ?_⟩
        rcases List.mem_cons.1 hb with rfl | hb
        · exact le_refl _
        · exact (hal b hb).le
      · rintro ⟨b, hb, hfb, hleast⟩
        rcases List.mem_cons.1 hb with rfl | hb
        · exact ha.symm.trans hfb
        · exact absurd (hleast a (.head _) (by rw [ha]; rfl)) (hal b hb).not_ge
    | none =>
      rw [List.findSome?_cons, ha, findSome?_eq_some_iff_of_pairwise hl]
      constructor
      · rintro ⟨b, hb, hfb, hleast⟩
        refine ⟨b, .tail _ hb, hfb, fun c hc hfc => ?_⟩
        rcases List.mem_cons.1 hc with rfl | hc
        · rw [ha] at hfc
          cases hfc
        · exact hleast c hc hfc
      · rintro ⟨b, hb, hfb, hleast⟩
        rcases List.mem_cons.1 hb with rfl | hb
        · rw [ha] at hfb
          cases hfb
        · exact ⟨b, hb, hfb, fun c hc => hleast c (.tail _ hc)⟩

end Questionnaire
