import Mathlib.Data.List.Nodup
import Mathlib.Data.List.Perm.Basic
import Questionnaire.Proofs.Route.Fitting
import Questionnaire.Proofs.Route.Roles
import Questionnaire.Route.Navigator

/-!
# The segments of a survey

The pages of a survey whose parts have the declared types (`Survey.Typed`) and whose pages are told
apart by ids and indexes (`Survey.Distinct`) stand in a strict order (`Survey.inOrder`). A stretch
is a run of these pages from its first to its last one (`Survey.Typed.exists_ends`), and no two
stretches overlap. So the pages in order are a sequence of segments (`Survey.exists_segments`): each
is a page that no battery owns, or the whole block of pages of one battery.
-/

namespace Questionnaire

/-- A survey whose parts have the types that they are declared with: ids and keys are texts, indexes
are integers, and the number of items of a battery is limited by an integer if at all. -/
structure Survey.Typed (survey : Survey) : Prop where
  pageId : ∀ p ∈ survey.pages, p.id.isText = true
  pageIndex : ∀ p ∈ survey.pages, ∃ i, p.index = .int i
  questionId : ∀ q ∈ survey.questions, q.id.isText = true
  choiceValue : ∀ q ∈ survey.questions, ∀ c ∈ q.choices, c.value.isText = true
  batteryId : ∀ b ∈ survey.batteries, b.id.isText = true
  maxItems : ∀ b ∈ survey.batteries, b.maxItems = .null ∨ ∃ n, b.maxItems = .int n
  rowKey : ∀ b ∈ survey.batteries, ∀ r ∈ b.rows, r.key.isText = true
  rowIndex : ∀ b ∈ survey.batteries, ∀ r ∈ b.rows, ∃ i, r.sortIndex = .int i

/-- A survey whose page ids, page indexes and battery ids are pairwise distinct. -/
structure Survey.Distinct (survey : Survey) : Prop where
  pageIds : (survey.pages.map Page.id).Nodup
  pageIndexes : (survey.pages.map Page.index).Nodup
  batteryIds : (survey.batteries.map Battery.id).Nodup

/-! ## Texts and integers -/

theorem demandKeys_of_isText {ids : List Id} (h : ∀ id ∈ ids, id.isText = true) :
    demandKeys ids = .ok () :=
  demandKeys_eq_ok_iff.2 fun id hid => Value.isCompound_of_isText (h id hid)

/-- Texts for ids keep batteries apart if the ids are distinct. -/
theorem Survey.Typed.batteriesApart {survey : Survey} (h : survey.Typed) (hd : survey.Distinct) :
    survey.BatteriesApart := by
  refine (List.pairwise_map.1 hd.batteryIds).imp_of_mem fun {b c} hb _ hne => ?_
  exact Bool.eq_false_iff.2 fun hagree => hne (Value.eq_of_agrees (h.batteryId b hb) hagree)

theorem Survey.Typed.agrees_eq_false {survey : Survey} (h : survey.Typed) (hd : survey.Distinct)
    {b c : Battery} (hb : b ∈ survey.batteries) (hc : c ∈ survey.batteries) (hne : b ≠ c) :
    b.id.agrees c.id = false :=
  Bool.eq_false_iff.2 fun hagree => hne ((h.batteriesApart hd).eq hb hc hagree)

/-! ## Pages in order -/

/-- The index of a page, as an integer. -/
def Page.rank (p : Page) : Int := p.index.wholePart

/-- Pages with texts for ids and integers for indexes, in the order of the indexes, no two of which
have the same id. -/
structure InOrder (pages : List Page) : Prop where
  id : ∀ p ∈ pages, p.id.isText = true
  index : ∀ p ∈ pages, p.index = .int p.rank
  ids : (pages.map Page.id).Nodup
  rising : pages.Pairwise fun p q => p.rank < q.rank

theorem InOrder.eq_of_id {pages : List Page} (h : InOrder pages) {p q : Page} (hp : p ∈ pages)
    (hq : q ∈ pages) (hid : p.id = q.id) : p = q :=
  List.inj_on_of_nodup_map h.ids hp hq hid

theorem InOrder.eq_of_agrees {pages : List Page} (h : InOrder pages) {p q : Page} (hp : p ∈ pages)
    (hq : q ∈ pages) (hid : p.id.agrees q.id = true) : p = q :=
  h.eq_of_id hp hq (Value.eq_of_agrees (h.id p hp) hid)

theorem InOrder.given?_id {pages : List Page} (h : InOrder pages) {p : Page} (hp : p ∈ pages) :
    p.id.given? = some p.id :=
  Value.given?_of_isText (h.id p hp)

section
variable {before inner after r : List Page} {p start finish : Page}

theorem InOrder.later (hL : InOrder (before ++ p :: r)) : ∀ q ∈ r, p.rank < q.rank :=
  (List.pairwise_cons.1 (List.pairwise_append.1 hL.rising).2.1).1

theorem InOrder.earlier (hL : InOrder (before ++ p :: r)) : ∀ q ∈ before, q.rank < p.rank :=
  fun q hq => (List.pairwise_append.1 hL.rising).2.2 q hq p (.head _)

/-- Of two pages of a list in order, one stands behind the other. -/
theorem InOrder.exists_between {pages : List Page} (h : InOrder pages) (hS : start ∈ pages)
    (hF : finish ∈ pages) (hlt : start.rank < finish.rank) :
    ∃ before inner after, pages = before ++ start :: (inner ++ finish :: after) := by
  obtain ⟨before, rest, rfl⟩ := List.append_of_mem hS
  -- The second page is neither before the first one nor the first one itself.
  have hrest : finish ∈ rest := by
    rcases List.mem_append.1 hF with hF | hF
    · have := h.earlier finish hF
      omega
    · rcases List.mem_cons.1 hF with rfl | hF
      · omega
      · exact hF
  obtain ⟨inner, after, rfl⟩ := List.append_of_mem hrest
  exact ⟨before, inner, after, rfl⟩

/-- The pages between two of a list in order, both included, are a run. -/
theorem InOrder.filter_between (h : InOrder (before ++ start :: (inner ++ finish :: after))) :
    (before ++ start :: (inner ++ finish :: after)).filter
        (fun p => decide (start.rank ≤ p.rank) && decide (p.rank ≤ finish.rank)) =
      start :: (inner ++ [finish]) := by
  have hrising := (List.pairwise_cons.1 (List.pairwise_append.1 h.rising).2.1).2
  have hearlier := h.earlier
  have hlater := h.later
  have hinner : ∀ p ∈ inner, p.rank < finish.rank := fun p hp =>
    (List.pairwise_append.1 hrising).2.2 p hp finish (.head _)
  have hafter : ∀ p ∈ after, finish.rank < p.rank :=
    (List.pairwise_cons.1 (List.pairwise_append.1 hrising).2.1).1
  have hlt : start.rank < finish.rank := hlater finish (by simp)
  have hbetween : ∀ p ∈ start :: (inner ++ [finish]),
      start.rank ≤ p.rank ∧ p.rank ≤ finish.rank := by
    intro p hp
    simp only [List.mem_cons, List.mem_append, List.not_mem_nil, or_false] at hp
    rcases hp with rfl | hp | rfl
    · omega
    · have := hlater p (by simp [hp])
      have := hinner p hp
      omega
    · omega
  have hsplit : before ++ start :: (inner ++ finish :: after) =
      before ++ (start :: (inner ++ [finish]) ++ after) := by simp
  rw [hsplit, List.filter_append, List.filter_append, List.filter_eq_nil_iff.2,
    List.filter_eq_self.2, List.filter_eq_nil_iff.2, List.nil_append, List.append_nil]
  · intro p hp
    have := hafter p hp
    simp
    omega
  · intro p hp
    simpa using hbetween p hp
  · intro p hp
    have := hearlier p hp
    simp
    omega

end

theorem Survey.mem_pagesInOrder {survey : Survey} {p : Page} :
    p ∈ survey.pagesInOrder ↔ p ∈ survey.pages :=
  (sortedBy_perm _ _).mem_iff

/-- A survey whose pages have texts for ids and integers for indexes. -/
structure Survey.PagesTyped (survey : Survey) : Prop where
  id : ∀ p ∈ survey.pages, p.id.isText = true
  index : ∀ p ∈ survey.pages, ∃ i, p.index = .int i

theorem Survey.Typed.pagesTyped {survey : Survey} (h : survey.Typed) : survey.PagesTyped :=
  ⟨h.pageId, h.pageIndex⟩

namespace Survey.PagesTyped

variable {survey : Survey} (h : survey.PagesTyped)
include h

theorem index_eq {p : Page} (hp : p ∈ survey.pages) : p.index = .int p.rank := by
  obtain ⟨i, hi⟩ := h.index p hp
  rw [Page.rank, hi]
  rfl

/-- The page that is found for an id has it. -/
theorem of_page? {id : Id} {p : Page} (hp : survey.page? id = some p) :
    p ∈ survey.pages ∧ p.id = id := by
  have hmem : p ∈ survey.pages := List.mem_of_find?_eq_some hp
  have hequal : p.id.equal id = true := List.find?_some (p := fun p : Page => p.id.equal id) hp
  exact ⟨hmem, Value.eq_of_agrees (h.id p hmem) (Value.agrees_of_equal hequal)⟩

theorem isBefore_iff {p q : Page} (hp : p ∈ survey.pages) (hq : q ∈ survey.pages) :
    p.isBefore q = true ↔ p.rank < q.rank := by
  rw [Page.isBefore, h.index_eq hp, h.index_eq hq, Value.atMost_int]
  simp

theorem pagesBetween_eq {start finish : Page} (hS : start ∈ survey.pages)
    (hF : finish ∈ survey.pages) : survey.pagesBetween start finish = survey.pagesInOrder.filter
      fun p => decide (start.rank ≤ p.rank) && decide (p.rank ≤ finish.rank) := by
  refine List.filter_congr fun p hp => ?_
  rw [h.index_eq hS, h.index_eq hF, h.index_eq (mem_pagesInOrder.1 hp), Value.atMost_int,
    Value.atMost_int]

end Survey.PagesTyped

/-- A survey whose pages have texts for ids and integers for indexes, all of them distinct. -/
structure Survey.PagesApart (survey : Survey) : Prop extends survey.PagesTyped where
  ids : (survey.pages.map Page.id).Nodup
  indexes : (survey.pages.map Page.index).Nodup

/-- The pages of a survey in order. -/
theorem Survey.PagesApart.inOrder {survey : Survey} (h : survey.PagesApart) :
    InOrder survey.pagesInOrder := by
  have hperm : survey.pagesInOrder.Perm survey.pages := sortedBy_perm _ _
  have hindex : ∀ p ∈ survey.pagesInOrder, p.index = .int p.rank :=
    fun p hp => h.index_eq (mem_pagesInOrder.1 hp)
  have hplaced : (survey.pages.all fun p => p.index.isPlaced) = true := by
    refine List.all_eq_true.2 fun p hp => ?_
    obtain ⟨i, hi⟩ := h.index p hp
    rw [hi]
    rfl
  refine ⟨fun p hp => h.id p (mem_pagesInOrder.1 hp), hindex,
    (hperm.map Page.id).nodup_iff.2 h.ids, ?_⟩
  have hindexes : (survey.pagesInOrder.map Page.index).Nodup :=
    (hperm.map Page.index).nodup_iff.2 h.indexes
  have hle : survey.pagesInOrder.Pairwise fun p q => p.index.place ≤ q.index.place :=
    pairwise_sortedBy Page.index survey.pages hplaced
  refine ((List.pairwise_map.1 hindexes).and hle).imp_of_mem fun {p q} hp hq hpq => ?_
  have hpi := hindex p hp
  have hqi := hindex q hq
  rw [hpi, hqi, Value.place_int_le_iff, Ne, Value.int.injEq] at hpq
  omega

theorem Survey.inOrder {survey : Survey} (h : survey.Typed)
    (hids : (survey.pages.map Page.id).Nodup) (hindexes : (survey.pages.map Page.index).Nodup) :
    InOrder survey.pagesInOrder :=
  PagesApart.inOrder ⟨h.pagesTyped, hids, hindexes⟩

/-- A list of pages in order is split around a page by its id. -/
theorem Navigator.aroundLast?_of_nodup {p : Page} {after : List Page} : ∀ {before : List Page},
    (∀ q ∈ before ++ p :: after, q.id.isText = true) → ((before ++ p :: after).map Page.id).Nodup →
      aroundLast? p.id (before ++ p :: after) = some (before, p, after)
  | [], htext, hnodup => by
    have hlater : ∀ l : List Page, (∀ q ∈ l, q.id.agrees p.id = false) →
        aroundLast? p.id l = none := by
      intro l hl
      induction l with
      | nil => rfl
      | cons q r ih =>
        rw [aroundLast?, ih fun x hx => hl x (.tail _ hx), hl q (.head _)]
        rfl
    have hafter : ∀ q ∈ after, q.id.agrees p.id = false := by
      refine fun q hq => Bool.eq_false_iff.2 fun hagree => ?_
      have heq := Value.eq_of_agrees (htext q (.tail _ hq)) hagree
      exact (List.nodup_cons.1 hnodup).1 (heq ▸ List.mem_map_of_mem hq)
    rw [List.nil_append, aroundLast?, hlater after hafter, if_pos (Value.agrees_self p.id)]
  | q :: before, htext, hnodup => by
    rw [List.cons_append, aroundLast?, aroundLast?_of_nodup (fun x hx => htext x (.tail _ hx))
      (List.nodup_cons.1 hnodup).2]

/-! ## The ends of a stretch -/

/-- The ends of the pages of a battery, which are in order. -/
theorem Survey.batteryPages?_eq_some_iff {survey : Survey} {b : Battery} {ids : List Id} :
    survey.batteryPages? b = some ids ↔ ∃ start finish,
      survey.page? b.startPageId = some start ∧ survey.page? b.endPageId = some finish ∧
        start.isBefore finish = true ∧ (survey.pagesBetween start finish).map Page.id = ids := by
  unfold batteryPages?
  split
  · next start finish hstart hfinish =>
    rw [hstart, hfinish]
    split <;> simp_all
  · next hnone =>
    refine ⟨nofun, ?_⟩
    rintro ⟨start, finish, hstart, hfinish, -⟩
    exact absurd hfinish (hnone start finish hstart)

/-- The pages of a battery are pages of the survey. -/
theorem Survey.exists_page_of_batteryPages? {survey : Survey} {b : Battery} {ids : List Id}
    (h : survey.batteryPages? b = some ids) {id : Id} (hid : id ∈ ids) :
    ∃ p ∈ survey.pagesInOrder, p.id = id := by
  obtain ⟨start, finish, -, -, -, rfl⟩ := batteryPages?_eq_some_iff.1 h
  obtain ⟨p, hp, rfl⟩ := List.mem_map.1 hid
  exact ⟨p, List.mem_of_mem_filter hp, rfl⟩

/-- The pages of a battery are those from its first to its last one. -/
theorem Survey.PagesTyped.batteryPages?_eq_some_iff {survey : Survey} (h : survey.PagesTyped)
    {b : Battery} {ids : List Id} : survey.batteryPages? b = some ids ↔ ∃ start finish : Page,
      survey.page? b.startPageId = some start ∧ survey.page? b.endPageId = some finish ∧
        start.rank < finish.rank ∧ ids = (survey.pagesInOrder.filter fun p =>
          decide (start.rank ≤ p.rank) && decide (p.rank ≤ finish.rank)).map Page.id := by
  rw [Survey.batteryPages?_eq_some_iff]
  refine exists₂_congr fun start finish => and_congr_right fun hstart =>
    and_congr_right fun hfinish => ?_
  have hS := (h.of_page? hstart).1
  have hF := (h.of_page? hfinish).1
  rw [h.isBefore_iff hS hF, h.pagesBetween_eq hS hF, eq_comm (b := ids)]

/-- The first and the last page of a stretch, which is made of the pages between them. -/
structure Stretch.Ends (survey : Survey) (st : Stretch) (start finish : Page) : Prop where
  start_mem : start ∈ survey.pagesInOrder
  finish_mem : finish ∈ survey.pagesInOrder
  startId : start.id = st.battery.startPageId
  finishId : finish.id = st.battery.endPageId
  lt : start.rank < finish.rank
  mem_iff : ∀ p ∈ survey.pagesInOrder, p.id.isAmong st.pageIds = true ↔
    start.rank ≤ p.rank ∧ p.rank ≤ finish.rank

/-- Every stretch has ends. -/
theorem Survey.Typed.exists_ends {survey : Survey} (h : survey.Typed)
    (hL : InOrder survey.pagesInOrder) {st : Stretch}
    (hst : st ∈ (RoleTable.ofSurvey survey).1.stretches) :
    ∃ start finish, st.Ends survey start finish := by
  have hpages := (RoleTable.mem_batteries_of_mem_stretches hst).2
  obtain ⟨start, finish, hstart, hfinish, hlt, hids⟩ :=
    h.pagesTyped.batteryPages?_eq_some_iff.1 hpages
  obtain ⟨hS, hSid⟩ := h.pagesTyped.of_page? hstart
  obtain ⟨hF, hFid⟩ := h.pagesTyped.of_page? hfinish
  refine ⟨start, finish, mem_pagesInOrder.2 hS, mem_pagesInOrder.2 hF, hSid, hFid, hlt,
    fun p hp => ?_⟩
  rw [Value.isAmong_iff_mem_of_isText (hL.id p hp), hids]
  constructor
  · intro hmem
    obtain ⟨q, hq, hid⟩ := List.mem_map.1 hmem
    obtain ⟨hq, hbetween⟩ := List.mem_filter.1 hq
    rw [← hL.eq_of_id hq hp hid]
    simpa using hbetween
  · exact fun hbetween => List.mem_map_of_mem (List.mem_filter.2 ⟨hp, by simpa using hbetween⟩)

/-! ## Segments -/

/-- A part of the pages in order: a page by itself, or the block of pages of a battery. -/
inductive Segment
  | single (p : Page)
  | block (b : Battery) (start : Page) (inner : List Page) (finish : Page)

/-- The pages of a battery, in order, with their roles. -/
structure RoleTable.IsBlock (t : RoleTable) (b : Battery) (start : Page) (inner : List Page)
    (finish : Page) : Prop where
  startId : start.id = b.startPageId
  finishId : finish.id = b.endPageId
  start : t.ownerOf? start.id = some (b, .start)
  inner : ∀ p ∈ inner, t.ownerOf? p.id = some (b, .interior)
  finish : t.ownerOf? finish.id = some (b, .finish)

namespace Segment

/-- The pages of a segment. -/
def pages : Segment → List Page
  | single p => [p]
  | block _ start inner finish => start :: (inner ++ [finish])

/-- The battery of a block. -/
def battery? : Segment → Option Battery
  | single _ => none
  | block b _ _ _ => some b

/-- A segment as a survey has it. -/
def Proper (survey : Survey) (t : RoleTable) : Segment → Prop
  | single p => t.ownerOf? p.id = none
  | block b start inner finish => b ∈ survey.batteries ∧ t.IsBlock b start inner finish

/-- The pages of a segment are owned by its battery, or by none. -/
theorem Proper.owner {survey : Survey} {t : RoleTable} {seg : Segment} (h : seg.Proper survey t)
    {p : Page} (hp : p ∈ seg.pages) : (t.ownerOf? p.id).map Prod.fst = seg.battery? := by
  cases seg with
  | single q =>
    rw [List.mem_singleton.1 hp, show t.ownerOf? q.id = none from h]
    rfl
  | block b start inner finish =>
    rcases List.mem_cons.1 hp with rfl | hp
    · rw [h.2.start]
      rfl
    rcases List.mem_append.1 hp with hp | hp
    · rw [h.2.inner p hp]
      rfl
    · rw [List.mem_singleton.1 hp, h.2.finish]
      rfl

theorem Proper.mem_batteries {survey : Survey} {t : RoleTable} {seg : Segment}
    (h : seg.Proper survey t) {b : Battery} (hb : b ∈ seg.battery?) : b ∈ survey.batteries := by
  cases seg with
  | single => cases hb
  | block => exact Option.some.inj hb ▸ h.1

/-- Every segment has a page. -/
theorem length_le_flatMap (segs : List Segment) : segs.length ≤ (segs.flatMap pages).length := by
  induction segs with
  | nil => exact Nat.le_refl 0
  | cons seg segs ih =>
    have hpos : 0 < seg.pages.length := by cases seg <;> simp [pages]
    rw [List.flatMap_cons, List.length_append, List.length_cons]
    omega

end Segment

/-! ## Where stretches end -/

/-- No stretch reaches over the place from which a part of the pages goes on: with any page of a
stretch the part has its first one. -/
def RoleTable.Whole (t : RoleTable) (rest : List Page) : Prop :=
  ∀ st ∈ t.stretches, ∀ q ∈ rest, q.id.isAmong st.pageIds = true →
    ∃ start ∈ rest, start.id = st.battery.startPageId

section
variable {survey : Survey} {st : Stretch} {before inner after r : List Page} {p start finish : Page}

variable (h : survey.Typed) (hL : InOrder survey.pagesInOrder)
include h hL

/-- A page that no battery owns is the first of no stretch. -/
theorem RoleTable.Whole.single (hsplit : survey.pagesInOrder = before ++ p :: r)
    (hwhole : (ofSurvey survey).1.Whole (p :: r))
    (hp : (ofSurvey survey).1.ownerOf? p.id = none) : (ofSurvey survey).1.Whole r := by
  intro st hst q hq hin
  obtain ⟨start, hstart, hid⟩ := hwhole st hst q (.tail _ hq) hin
  rcases List.mem_cons.1 hstart with rfl | hstart
  · obtain ⟨S, F, hends⟩ := h.exists_ends hL hst
    have hmem : start ∈ survey.pagesInOrder := by simp [hsplit]
    obtain rfl : S = start := hL.eq_of_id hends.start_mem hmem (hends.startId.trans hid.symm)
    have hin := (hends.mem_iff S hmem).2 ⟨Int.le_refl _, Int.le_of_lt hends.lt⟩
    rw [isAmong_eq_false_of_ownerOf?_eq_none hp hst] at hin
    cases hin
  · exact ⟨start, hstart, hid⟩

omit h in
/-- A page with which a stretch begins over again is the first of it, and the last one is behind. -/
theorem Stretch.Ends.exists_split (hends : st.Ends survey start finish)
    (hst : st ∈ (RoleTable.ofSurvey survey).1.stretches)
    (hsplit : survey.pagesInOrder = before ++ p :: r)
    (hwhole : (RoleTable.ofSurvey survey).1.Whole (p :: r)) (hp : p.id.isAmong st.pageIds = true) :
    start = p ∧ ∃ inner after, r = inner ++ finish :: after := by
  have hpmem : p ∈ survey.pagesInOrder := by simp [hsplit]
  have hle := ((hends.mem_iff p hpmem).1 hp).1
  have hlt := hends.lt
  rw [hsplit] at hL
  obtain rfl : start = p := by
    obtain ⟨q, hq, hid⟩ := hwhole st hst p (.head _) hp
    have hqmem : q ∈ before ++ p :: r := List.mem_append_right before hq
    obtain rfl : start = q := hL.eq_of_id (hsplit ▸ hends.start_mem) hqmem
      (hends.startId.trans hid.symm)
    rcases List.mem_cons.1 hq with rfl | hq
    · rfl
    · have := hL.later start hq
      omega
  refine ⟨rfl, List.append_of_mem ?_⟩
  have hmem := hends.finish_mem
  rw [hsplit, List.mem_append, List.mem_cons] at hmem
  rcases hmem with hmem | rfl | hmem
  · have := hL.earlier finish hmem
    omega
  · omega
  · exact hmem

omit h in
/-- The pages of a stretch are owned by its battery, with their roles. -/
theorem Stretch.Ends.isBlock (hends : st.Ends survey start finish)
    (hst : st ∈ (RoleTable.ofSurvey survey).1.stretches)
    (hsplit : survey.pagesInOrder = before ++ start :: (inner ++ finish :: after)) :
    (RoleTable.ofSurvey survey).1.IsBlock st.battery start inner finish := by
  have hinner : ∀ q ∈ inner, start.rank < q.rank ∧ q.rank < finish.rank := by
    rw [hsplit] at hL
    refine fun q hq => ⟨hL.later q (by simp [hq]), ?_⟩
    have hrising := (List.pairwise_cons.1 (List.pairwise_append.1 hL.rising).2.1).2
    exact (List.pairwise_append.1 hrising).2.2 q hq finish (.head _)
  have howner : ∀ q ∈ survey.pagesInOrder, start.rank ≤ q.rank → q.rank ≤ finish.rank →
      (RoleTable.ofSurvey survey).1.ownerOf? q.id = some (st.battery,
        if q = start then .start else if q = finish then .finish else .interior) := by
    intro q hq hle hle'
    have hagrees : ∀ e ∈ survey.pagesInOrder, q.id.agrees e.id = decide (q = e) := fun e he => by
      rw [Bool.eq_iff_iff, decide_eq_true_iff]
      exact ⟨hL.eq_of_agrees hq he, fun hqe => hqe ▸ Value.agrees_self _⟩
    have hrole : st.roleOf q.id = if q = start then .start else if q = finish then .finish
        else .interior := by
      rw [Stretch.roleOf, ← hends.startId, ← hends.finishId, hagrees _ hends.start_mem,
        hagrees _ hends.finish_mem]
      simp
    rw [← hrole]
    exact RoleTable.ownerOf?_of_mem (RoleTable.pairwise_ofSurvey survey) hst
      ((hends.mem_iff q hq).2 ⟨hle, hle'⟩)
  have hlt := hends.lt
  refine ⟨hends.startId, hends.finishId, ?_, fun q hq => ?_, ?_⟩
  · rw [howner start hends.start_mem (Int.le_refl _) (Int.le_of_lt hlt), if_pos rfl]
  · have hq' : q ∈ survey.pagesInOrder := by simp [hsplit, hq]
    obtain ⟨hS, hF⟩ := hinner q hq
    rw [howner q hq' (Int.le_of_lt hS) (Int.le_of_lt hF), if_neg (fun e => by rw [e] at hS; omega),
      if_neg (fun e => by rw [e] at hF; omega)]
  · rw [howner finish hends.finish_mem (Int.le_of_lt hlt) (Int.le_refl _),
      if_neg (fun e => by rw [e] at hlt; omega), if_pos rfl]

/-- Behind a block no stretch goes on. -/
theorem RoleTable.Whole.block (hends : st.Ends survey start finish)
    (hst : st ∈ (ofSurvey survey).1.stretches)
    (hsplit : survey.pagesInOrder = before ++ start :: (inner ++ finish :: after))
    (hwhole : (ofSurvey survey).1.Whole (start :: (inner ++ finish :: after))) :
    (ofSurvey survey).1.Whole after := by
  have hblock := hends.isBlock hL hst hsplit
  have hlater : ∀ q ∈ after, finish.rank < q.rank := by
    rw [hsplit] at hL
    have hrising := (List.pairwise_cons.1 (List.pairwise_append.1 hL.rising).2.1).2
    exact (List.pairwise_cons.1 (List.pairwise_append.1 hrising).2.1).1
  intro st' hst' q hq hin
  -- A stretch that starts in the block is the one of its battery, and ends there.
  have hfirst : ∀ e role, e ∈ survey.pagesInOrder → e.id = st'.battery.startPageId →
      (ofSurvey survey).1.ownerOf? e.id = some (st.battery, role) → False := by
    intro e role he hid howner
    obtain ⟨S, F, hends'⟩ := h.exists_ends hL hst'
    obtain rfl : S = e := hL.eq_of_id hends'.start_mem he (hends'.startId.trans hid.symm)
    have hin' := (hends'.mem_iff S he).2 ⟨Int.le_refl _, Int.le_of_lt hends'.lt⟩
    have hown := ownerOf?_of_mem (pairwise_ofSurvey survey) hst' hin'
    have hbattery : st.battery = st'.battery :=
      congrArg Prod.fst (Option.some.inj (howner.symm.trans hown))
    have hids := (mem_batteries_of_mem_stretches hst').2
    rw [← hbattery, (mem_batteries_of_mem_stretches hst).2, Option.some.injEq] at hids
    have hq' : q ∈ survey.pagesInOrder := by simp [hsplit, hq]
    have := ((hends.mem_iff q hq').1 (hids ▸ hin)).2
    have := hlater q hq
    omega
  obtain ⟨e, he, hid⟩ := hwhole st' hst' q (by simp [hq]) hin
  have he' : e ∈ survey.pagesInOrder := hsplit ▸ List.mem_append_right before he
  rcases List.mem_cons.1 he with rfl | he
  · exact (hfirst e _ he' hid hblock.start).elim
  rcases List.mem_append.1 he with he | he
  · exact (hfirst e _ he' hid (hblock.inner e he)).elim
  rcases List.mem_cons.1 he with rfl | he
  · exact (hfirst e _ he' hid hblock.finish).elim
  · exact ⟨e, he, hid⟩

/-- A part of the pages from a place on over which no stretch reaches is a sequence of segments. -/
theorem exists_segments_from : ∀ rest before : List Page, survey.pagesInOrder = before ++ rest →
    (RoleTable.ofSurvey survey).1.Whole rest →
      ∃ segs : List Segment, rest = segs.flatMap Segment.pages ∧
        ∀ seg ∈ segs, seg.Proper survey (RoleTable.ofSurvey survey).1
  | [], _, _, _ => ⟨[], rfl, fun _ hseg => nomatch hseg⟩
  | p :: r, before, hsplit, hwhole => by
    cases ho : (RoleTable.ofSurvey survey).1.ownerOf? p.id with
    | none =>
      obtain ⟨segs, hsegs, hproper⟩ := exists_segments_from r (before ++ [p])
        (by rw [hsplit, List.append_assoc]; rfl) (hwhole.single h hL hsplit ho)
      exact ⟨.single p :: segs, by rw [List.flatMap_cons, ← hsegs]; rfl,
        List.forall_mem_cons.2 ⟨ho, hproper⟩⟩
    | some owner =>
      obtain ⟨b, role⟩ := owner
      obtain ⟨st, hst, rfl, hin, -⟩ := RoleTable.exists_of_ownerOf? ho
      obtain ⟨start, finish, hends⟩ := h.exists_ends hL hst
      obtain ⟨rfl, inner, after, rfl⟩ := hends.exists_split hL hst hsplit hwhole hin
      obtain ⟨segs, hsegs, hproper⟩ := exists_segments_from after
        (before ++ start :: (inner ++ [finish])) (by rw [hsplit]; simp)
        (hwhole.block h hL hends hst hsplit)
      refine ⟨.block st.battery start inner finish :: segs, ?_, List.forall_mem_cons.2
        ⟨⟨(RoleTable.mem_batteries_of_mem_stretches hst).1, hends.isBlock hL hst hsplit⟩, hproper⟩⟩
      rw [List.flatMap_cons, ← hsegs]
      simp [Segment.pages]
termination_by rest => rest.length

end

/-- The pages of a survey in order are a sequence of segments, the blocks of different batteries. -/
theorem Survey.exists_segments {survey : Survey} (h : survey.Typed) (hd : survey.Distinct) :
    ∃ segs : List Segment, survey.pagesInOrder = segs.flatMap Segment.pages ∧
      (∀ seg ∈ segs, seg.Proper survey (RoleTable.ofSurvey survey).1) ∧
      segs.Pairwise fun x y => ∀ b ∈ x.battery?, ∀ c ∈ y.battery?, b ≠ c := by
  have hL := survey.inOrder h hd.pageIds hd.pageIndexes
  have hwhole : (RoleTable.ofSurvey survey).1.Whole survey.pagesInOrder := by
    intro st hst q _ _
    obtain ⟨start, finish, hends⟩ := h.exists_ends hL hst
    exact ⟨start, hends.start_mem, hends.startId⟩
  obtain ⟨segs, hsegs, hproper⟩ := exists_segments_from h hL survey.pagesInOrder [] rfl hwhole
  refine ⟨segs, hsegs, hproper, ?_⟩
  -- Two blocks of one battery would start with the same page.
  have hids := List.pairwise_map.1 hL.ids
  rw [hsegs, List.pairwise_flatMap] at hids
  refine hids.2.imp_of_mem fun {x y} hx hy hxy b hb c hc hbc => ?_
  cases x with
  | single => cases hb
  | block b' start inner finish =>
    cases y with
    | single => cases hc
    | block c' start' inner' finish' =>
      obtain rfl : b' = b := Option.some.inj hb
      obtain rfl : c' = c := Option.some.inj hc
      refine hxy start (.head _) start' (.head _) ?_
      rw [(hproper _ hx).2.startId, (hproper _ hy).2.startId, hbc]

end Questionnaire
