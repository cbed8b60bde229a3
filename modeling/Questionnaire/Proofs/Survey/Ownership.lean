import Mathlib.Data.List.Induction
import Questionnaire.Proofs.Route.Firing
import Questionnaire.Proofs.Survey.Ranges

/-!
# Which battery owns which page

Batteries are gone through in authored order, and each is accepted if it has a run of pages none of
which an earlier accepted one has (`Survey.PagesApart.acceptsAt_iff`). A run is a part of the pages
in order that begins with the battery's start page and ends with its end page (`Battery.HasRun`). A
battery that dangles or is inverted has none, and any other has exactly one
(`Survey.PagesApart.exists_run`, `run_unique`).

The table of a list of batteries has a stretch for each accepted one and no other
(`RoleTable.mem_stretches_iff`), so a battery that is left out leaves no trace. What is said of the
batteries of a list is said by their positions in it, since one battery may stand there twice.
-/

namespace Questionnaire

open RoleTable

/-! ## Runs of pages -/

/-- A first page, a last page and the pages between them. -/
structure PageRun where
  start : Page
  inner : List Page
  finish : Page

namespace PageRun

/-- The pages of a run. -/
def pages (r : PageRun) : List Page := r.start :: (r.inner ++ [r.finish])

/-- What the page with an id is in a run. -/
def Plays (r : PageRun) (id : Id) : LoopRole → Prop
  | .start => id = r.start.id
  | .interior => ∃ p ∈ r.inner, id = p.id
  | .finish => id = r.finish.id

/-- What the ends of a run make of a page in it. -/
def roleOf (r : PageRun) (id : Id) : LoopRole :=
  if id = r.start.id then .start else if id = r.finish.id then .finish else .interior

end PageRun

/-- The run of a battery: consecutive pages of the survey, from its start page to its end page. -/
structure Battery.HasRun (b : Battery) (survey : Survey) (r : PageRun) : Prop where
  contiguous : r.pages <:+: survey.pagesInOrder
  startId : r.start.id = b.startPageId
  finishId : r.finish.id = b.endPageId

namespace Survey

variable {survey : Survey} {b c : Battery} {r r' : PageRun} {p start finish : Page} {id : Id}
  {ids : List Id} {i j : Nat}

namespace PagesApart

variable (h : survey.PagesApart)
include h

theorem page?_eq_some_iff : survey.page? id = some p ↔ p ∈ survey.pages ∧ p.id = id := by
  refine ⟨h.of_page?, ?_⟩
  rintro ⟨hp, rfl⟩
  cases hq : survey.page? p.id with
  | none =>
    have hne := List.find?_eq_none.1 hq p hp
    exact absurd ((Value.equal_iff_of_isText (h.id p hp)).2 rfl) hne
  | some q =>
    obtain ⟨hmem, hid⟩ := h.of_page? hq
    rw [List.inj_on_of_nodup_map h.ids hmem hp hid]

/-- The pages of a run are those from its first to its last one. -/
theorem pages_eq (hr : b.HasRun survey r) : r.pages = survey.pagesInOrder.filter fun p =>
    decide (r.start.rank ≤ p.rank) && decide (p.rank ≤ r.finish.rank) := by
  obtain ⟨before, after, hsplit⟩ := hr.contiguous
  have hL := h.inOrder
  have hpages : survey.pagesInOrder =
      before ++ r.start :: (r.inner ++ r.finish :: after) := by
    rw [← hsplit]
    simp [PageRun.pages]
  rw [hpages] at hL ⊢
  exact hL.filter_between.symm

theorem mem_pages_iff (hr : b.HasRun survey r) :
    p ∈ r.pages ↔ p ∈ survey.pages ∧ r.start.rank ≤ p.rank ∧ p.rank ≤ r.finish.rank := by
  rw [h.pages_eq hr, List.mem_filter, mem_pagesInOrder]
  simp

/-- The ends of the run of a battery are the pages that the battery names, in order. -/
theorem ends_of_hasRun (hr : b.HasRun survey r) :
    survey.page? b.startPageId = some r.start ∧ survey.page? b.endPageId = some r.finish ∧
      r.start.rank < r.finish.rank := by
  obtain ⟨before, after, hsplit⟩ := hr.contiguous
  have hmem : ∀ q ∈ r.pages, q ∈ survey.pages := fun q hq =>
    mem_pagesInOrder.1 (hsplit ▸ by simp [hq])
  refine ⟨h.page?_eq_some_iff.2 ⟨hmem _ (by simp [PageRun.pages]), hr.startId⟩,
    h.page?_eq_some_iff.2 ⟨hmem _ (by simp [PageRun.pages]), hr.finishId⟩, ?_⟩
  have hL := h.inOrder
  rw [← hsplit, List.append_assoc, PageRun.pages, List.cons_append] at hL
  exact hL.later r.finish (by simp)

/-- Two pages in order are the ends of a run. -/
theorem exists_run (hstart : survey.page? b.startPageId = some start)
    (hfinish : survey.page? b.endPageId = some finish) (hlt : start.rank < finish.rank) :
    ∃ inner, b.HasRun survey ⟨start, inner, finish⟩ := by
  obtain ⟨hS, hSid⟩ := h.page?_eq_some_iff.1 hstart
  obtain ⟨hF, hFid⟩ := h.page?_eq_some_iff.1 hfinish
  obtain ⟨before, inner, after, hsplit⟩ :=
    h.inOrder.exists_between (mem_pagesInOrder.2 hS) (mem_pagesInOrder.2 hF) hlt
  exact ⟨inner, ⟨before, after, by simp [hsplit, PageRun.pages]⟩, hSid, hFid⟩

/-- The pages that the role table takes for those of a battery are those of its run. -/
theorem batteryPages?_eq_some_iff_hasRun :
    survey.batteryPages? b = some ids ↔ ∃ r, b.HasRun survey r ∧ ids = r.pages.map Page.id := by
  rw [h.batteryPages?_eq_some_iff]
  constructor
  · rintro ⟨start, finish, hstart, hfinish, hlt, rfl⟩
    obtain ⟨inner, hr⟩ := h.exists_run hstart hfinish hlt
    exact ⟨_, hr, by rw [h.pages_eq hr]⟩
  · rintro ⟨r, hr, rfl⟩
    obtain ⟨hstart, hfinish, hlt⟩ := h.ends_of_hasRun hr
    exact ⟨_, _, hstart, hfinish, hlt, by rw [h.pages_eq hr]⟩

/-- A battery has at most one run. -/
theorem run_unique (hr : b.HasRun survey r) (hr' : b.HasRun survey r') : r.pages = r'.pages := by
  obtain ⟨hstart, hfinish, -⟩ := h.ends_of_hasRun hr
  obtain ⟨hstart', hfinish', -⟩ := h.ends_of_hasRun hr'
  rw [h.pages_eq hr, h.pages_eq hr', Option.some.inj (hstart.symm.trans hstart'),
    Option.some.inj (hfinish.symm.trans hfinish')]

end PagesApart

end Survey

/-! ## What a table holds -/

namespace RoleTable

variable {survey : Survey} {t : RoleTable} {st : Stretch} {b : Battery} {id : Id} {ids : List Id}

theorem addAll_append (survey : Survey) (m : List Battery) : ∀ (l : List Battery) (t : RoleTable),
    (addAll survey t (l ++ m)).1 = (addAll survey (addAll survey t l).1 m).1
  | [], _ => rfl
  | b :: l, t => addAll_append survey m l (t.add survey b)

theorem ownerOf?_eq_none_iff :
    t.ownerOf? id = none ↔ ∀ st ∈ t.stretches, id.isAmong st.pageIds = false := by
  simp [ownerOf?]

theorem verdict_eq_accepted_iff : t.verdict survey b = .accepted ids ↔
    survey.batteryPages? b = some ids ∧ ∀ id ∈ ids, t.ownerOf? id = none := by
  unfold verdict
  cases survey.batteryPages? b with
  | none => simp
  | some ids' =>
    simp only [Option.some.injEq]
    cases htaken : ids'.filter fun id => (t.ownerOf? id).isSome with
    | nil =>
      have hfree : ∀ id ∈ ids', t.ownerOf? id = none := by
        simpa using List.filter_eq_nil_iff.1 htaken
      simp only [RangeVerdict.accepted.injEq]
      exact ⟨fun he => ⟨he, he ▸ hfree⟩, fun he => he.1⟩
    | cons id r =>
      have hid : id ∈ ids'.filter fun id => (t.ownerOf? id).isSome := htaken ▸ List.mem_cons_self
      obtain ⟨hmem, hsome⟩ := List.mem_filter.1 hid
      refine iff_of_false (by simp) ?_
      rintro ⟨rfl, hfree⟩
      rw [hfree id hmem] at hsome
      cases hsome

theorem mem_add_iff : st ∈ (t.add survey b).stretches ↔
    st ∈ t.stretches ∨ st.battery = b ∧ t.verdict survey b = .accepted st.pageIds := by
  unfold add
  cases t.verdict survey b with
  | accepted ids =>
    obtain ⟨c, ids'⟩ := st
    simp [eq_comm]
  | invalid | taken _ => simp

/-- The table of the batteries of a list. -/
def ofBatteries (survey : Survey) (l : List Battery) : RoleTable := (addAll survey ⟨[]⟩ l).1

theorem ofBatteries_concat (l : List Battery) :
    ofBatteries survey (l ++ [b]) = (ofBatteries survey l).add survey b :=
  addAll_append survey [b] l ⟨[]⟩

/-- A table has a stretch for each battery that the table of those before it accepts. -/
theorem mem_stretches_iff (l : List Battery) : st ∈ (ofBatteries survey l).stretches ↔
    ∃ i, l[i]? = some st.battery ∧
      (ofBatteries survey (l.take i)).verdict survey st.battery = .accepted st.pageIds := by
  induction l using List.reverseRecOn with
  | nil => simp [ofBatteries, addAll]
  | append_singleton l b ih =>
    rw [ofBatteries_concat, mem_add_iff, ih]
    constructor
    · rintro (⟨i, hi, hverdict⟩ | ⟨rfl, hverdict⟩)
      · have hlt := (List.getElem?_eq_some_iff.1 hi).1
        exact ⟨i, by rw [List.getElem?_append_left hlt, hi],
          by rwa [List.take_append_of_le_length (Nat.le_of_lt hlt)]⟩
      · exact ⟨l.length, by simp, by simpa using hverdict⟩
    · rintro ⟨i, hi, hverdict⟩
      rcases Nat.lt_trichotomy i l.length with hlt | rfl | hlt
      · rw [List.getElem?_append_left hlt] at hi
        rw [List.take_append_of_le_length (Nat.le_of_lt hlt)] at hverdict
        exact .inl ⟨i, hi, hverdict⟩
      · have hb : st.battery = b := by simpa using hi.symm
        exact .inr ⟨hb, by simpa [hb] using hverdict⟩
      · rw [List.getElem?_eq_none (by simp; omega)] at hi
        cases hi

end RoleTable

/-! ## Accepted batteries -/

namespace Survey

/-- The battery at a position is accepted: the table of those before it has a place for it. -/
def AcceptsAt (survey : Survey) (i : Nat) (b : Battery) : Prop :=
  survey.batteries[i]? = some b ∧
    ∃ ids, (ofBatteries survey (survey.batteries.take i)).verdict survey b = .accepted ids

/-- The battery at a position is accepted, and this is its run. -/
structure OwnsAt (survey : Survey) (i : Nat) (b : Battery) (r : PageRun) : Prop where
  accepted : survey.AcceptsAt i b
  run : b.HasRun survey r

variable {survey : Survey} {b c : Battery} {r r' : PageRun} {p : Page} {id : Id} {i j : Nat}
  {st : Stretch}

namespace PagesApart

variable (h : survey.PagesApart)
include h

theorem isAmong_run_iff (hr : b.HasRun survey r) (hp : p ∈ survey.pages) :
    p.id.isAmong (r.pages.map Page.id) = true ↔ p ∈ r.pages := by
  rw [Value.isAmong_iff_mem_of_isText (h.id p hp)]
  refine ⟨fun hmem => ?_, List.mem_map_of_mem⟩
  obtain ⟨q, hq, hid⟩ := List.mem_map.1 hmem
  rwa [List.inj_on_of_nodup_map h.ids hp ((h.mem_pages_iff hr).1 hq).1 hid.symm]

/-- The stretches of a table of batteries of the survey are the accepted ones with their runs. -/
theorem mem_ofBatteries_take_iff : st ∈ (ofBatteries survey (survey.batteries.take i)).stretches ↔
    ∃ j r, j < i ∧ survey.OwnsAt j st.battery r ∧ st.pageIds = r.pages.map Page.id := by
  rw [mem_stretches_iff]
  constructor
  · rintro ⟨j, hj, hverdict⟩
    obtain ⟨hlt, hbattery⟩ : j < i ∧ survey.batteries[j]? = some st.battery := by
      rw [List.getElem?_take] at hj
      split at hj
      · exact ⟨‹_›, hj⟩
      · cases hj
    rw [List.take_take, Nat.min_eq_left (Nat.le_of_lt hlt)] at hverdict
    obtain ⟨r, hr, hids⟩ := h.batteryPages?_eq_some_iff_hasRun.1
      (verdict_eq_accepted_iff.1 hverdict).1
    exact ⟨j, r, hlt, ⟨⟨hbattery, _, hverdict⟩, hr⟩, hids⟩
  · rintro ⟨j, r, hlt, ⟨⟨hbattery, ids, hverdict⟩, hr⟩, hids⟩
    refine ⟨j, by rw [List.getElem?_take, if_pos hlt, hbattery], ?_⟩
    obtain ⟨r', hr', rfl⟩ := h.batteryPages?_eq_some_iff_hasRun.1
      (verdict_eq_accepted_iff.1 hverdict).1
    rw [List.take_take, Nat.min_eq_left (Nat.le_of_lt hlt), hverdict, hids, h.run_unique hr hr']

/-- Before a position, a page has no owner unless it is in the run of an accepted battery. -/
theorem ownerOf?_take_eq_none_iff (hp : p ∈ survey.pages) :
    (ofBatteries survey (survey.batteries.take i)).ownerOf? p.id = none ↔
      ∀ j c r, j < i → survey.OwnsAt j c r → p ∉ r.pages := by
  rw [ownerOf?_eq_none_iff]
  constructor
  · intro hfree j c r hlt howns hmem
    have hfalse := hfree ⟨c, r.pages.map Page.id⟩
      (h.mem_ofBatteries_take_iff.2 ⟨j, r, hlt, howns, rfl⟩)
    rw [(h.isAmong_run_iff howns.run hp).2 hmem] at hfalse
    cases hfalse
  · intro hfree st hst
    obtain ⟨j, r, hlt, howns, hids⟩ := h.mem_ofBatteries_take_iff.1 hst
    rw [hids, Bool.eq_false_iff, Ne, h.isAmong_run_iff howns.run hp]
    exact hfree j _ r hlt howns

/-- A battery is accepted if it has a run that is free. -/
theorem acceptsAt_iff (hb : survey.batteries[i]? = some b) : survey.AcceptsAt i b ↔
    ∃ r, b.HasRun survey r ∧ ∀ p ∈ r.pages, ∀ j c r', j < i → survey.OwnsAt j c r' →
      p ∉ r'.pages := by
  simp only [AcceptsAt, hb, true_and, verdict_eq_accepted_iff,
    h.batteryPages?_eq_some_iff_hasRun]
  have hfree : ∀ r, b.HasRun survey r →
      ((∀ id ∈ r.pages.map Page.id,
        (ofBatteries survey (survey.batteries.take i)).ownerOf? id = none) ↔
      ∀ p ∈ r.pages, ∀ j c r', j < i → survey.OwnsAt j c r' → p ∉ r'.pages) := by
    intro r hr
    rw [List.forall_mem_map]
    exact forall₂_congr fun p hp => h.ownerOf?_take_eq_none_iff ((h.mem_pages_iff hr).1 hp).1
  constructor
  · rintro ⟨_, ⟨r, hr, rfl⟩, hids⟩
    exact ⟨r, hr, (hfree r hr).1 hids⟩
  · rintro ⟨r, hr, hpages⟩
    exact ⟨_, ⟨r, hr, rfl⟩, (hfree r hr).2 hpages⟩

/-- The runs of two accepted batteries have no page in common. -/
theorem disjoint_of_ownsAt (hi : survey.OwnsAt i b r) (hj : survey.OwnsAt j c r') (hne : i ≠ j) :
    ∀ p ∈ r.pages, p ∉ r'.pages := by
  have hlater : ∀ {i j b c r r'}, survey.OwnsAt i b r → survey.OwnsAt j c r' → i < j →
      ∀ p ∈ r.pages, p ∉ r'.pages := by
    intro i j b c r r' hi hj hlt p hp hp'
    obtain ⟨r'', hr'', hfree⟩ := (h.acceptsAt_iff hj.accepted.1).1 hj.accepted
    rw [h.run_unique hj.run hr''] at hp'
    exact hfree p hp' i b r hlt hi hp
  rcases Nat.lt_or_gt_of_ne hne with hlt | hlt
  · exact hlater hi hj hlt
  · exact fun p hp hp' => hlater hj hi hlt p hp' hp

/-- There is a verdict on every battery of a survey. -/
theorem demandVerdict_eq_ok {t : RoleTable} : t.demandVerdict survey b = .ok () := by
  have hids : ∀ id ∈ (survey.batteryPages? b).getD [], id.isText = true := by
    intro id hid
    cases hpages : survey.batteryPages? b with
    | none => rw [hpages] at hid; cases hid
    | some ids =>
      rw [hpages] at hid
      obtain ⟨r, hr, rfl⟩ := h.batteryPages?_eq_some_iff_hasRun.1 hpages
      obtain ⟨p, hp, rfl⟩ := List.mem_map.1 hid
      exact h.id p ((h.mem_pages_iff hr).1 hp).1
  have htaken : ∀ ids, t.verdict survey b = .taken ids → ids.all Value.isText = true := by
    intro ids hverdict
    unfold verdict at hverdict
    split at hverdict
    · cases hverdict
    next ids' hpages =>
      split at hverdict
      · cases hverdict
      · obtain rfl := RangeVerdict.taken.inj hverdict
        rw [hpages] at hids
        exact List.all_eq_true.2 fun id hid => hids id (List.mem_of_mem_filter hid)
  unfold demandVerdict
  split
  next start finish hstart hfinish =>
    have hstart := h.index_eq (h.of_page? hstart).1
    have hfinish := h.index_eq (h.of_page? hfinish).1
    have hcomparable : demandComparable [start.index, finish.index] = .ok () :=
      Jump.demandComparable_of_isSized (by simp [hstart, hfinish, Value.isSized])
    rw [hcomparable, demandKeys_of_isText hids]
    split
    next ids hverdict => simp [bind, Except.bind, htaken ids hverdict]
    · rfl
  · rfl

theorem announceAll_eq (l : List Battery) : ∀ t d, (announceAll survey t l).perform d =
    (.ok (), { d with events := d.events ++ (addAll survey t l).2 }) := by
  induction l with
  | nil => intro t d; simp [announceAll, addAll]
  | cons b l ih =>
    intro t d
    rw [announceAll, h.demandVerdict_eq_ok]
    simp [Flow.ofResult, Flow.perform_bind, ih, addAll]

/-- The roles of a survey are always found. Nothing but the warnings is left behind. -/
theorem announce_eq (d : Desk) : (announce survey).perform d =
    (.ok (), { d with events := d.events ++ (ofSurvey survey).2 }) := by
  have hcomparable : demandComparable (survey.pages.map Page.index) = .ok () :=
    Jump.demandComparable_of_isSized <| List.forall_mem_map.2 fun p hp => by
      rw [h.index_eq hp]
      rfl
  rw [announce, Flow.demandComparable, hcomparable]
  simp [Flow.ofResult, h.announceAll_eq, ofSurvey]

/-- The stretches of the table of a survey are the accepted batteries with their runs. -/
theorem mem_stretches_ofSurvey_iff : st ∈ (ofSurvey survey).1.stretches ↔
    ∃ i r, survey.OwnsAt i st.battery r ∧ st.pageIds = r.pages.map Page.id := by
  have hall : (ofSurvey survey).1 =
      ofBatteries survey (survey.batteries.take survey.batteries.length) := by
    rw [List.take_length]
    rfl
  rw [hall, h.mem_ofBatteries_take_iff]
  constructor
  · rintro ⟨i, r, -, howns, hids⟩
    exact ⟨i, r, howns, hids⟩
  · rintro ⟨i, r, howns, hids⟩
    exact ⟨i, r, (List.getElem?_eq_some_iff.1 howns.accepted.1).1, howns, hids⟩

theorem roleOf_eq (hr : b.HasRun survey r) : r.roleOf r.start.id = .start ∧
    (∀ p ∈ r.inner, r.roleOf p.id = .interior) ∧ r.roleOf r.finish.id = .finish := by
  have hnodup : (r.pages.map Page.id).Nodup :=
    h.inOrder.ids.sublist (hr.contiguous.sublist.map Page.id)
  rw [PageRun.pages, List.map_cons, List.map_append, List.nodup_cons, List.nodup_append] at hnodup
  obtain ⟨hstart, -, -, hinner⟩ := hnodup
  refine ⟨if_pos rfl, fun p hp => ?_, ?_⟩
  · have hneStart : p.id ≠ r.start.id :=
      fun he => hstart (he ▸ List.mem_append_left _ (List.mem_map_of_mem hp))
    have hneFinish : p.id ≠ r.finish.id :=
      fun he => hinner _ (List.mem_map_of_mem hp) _ (List.mem_map_of_mem (.head _)) he
    rw [PageRun.roleOf, if_neg hneStart, if_neg hneFinish]
  · have hne : r.finish.id ≠ r.start.id := fun he => hstart (by simp [he])
    rw [PageRun.roleOf, if_neg hne, if_pos rfl]

/-- What a page is in a run is decided by the ends of the run. -/
theorem plays_iff (hr : b.HasRun survey r) (hp : p ∈ r.pages) {role : LoopRole} :
    r.Plays p.id role ↔ role = r.roleOf p.id := by
  obtain ⟨hstart, hinner, hfinish⟩ := h.roleOf_eq hr
  constructor
  · intro hplays
    cases role with
    | start => rw [show p.id = r.start.id from hplays, hstart]
    | interior =>
      obtain ⟨q, hq, hid⟩ := hplays
      rw [hid, hinner q hq]
    | finish => rw [show p.id = r.finish.id from hplays, hfinish]
  · rintro rfl
    simp only [PageRun.pages, List.mem_cons, List.mem_append, List.not_mem_nil, or_false] at hp
    rcases hp with rfl | hp | rfl
    · rw [hstart]
      rfl
    · rw [hinner p hp]
      exact ⟨p, hp, rfl⟩
    · rw [hfinish]
      rfl

/-- The battery of a run owns its pages in their roles. -/
theorem roleOf?_of_ownsAt (howns : survey.OwnsAt i b r) (hp : p ∈ r.pages) :
    (ofSurvey survey).1.roleOf? p.id = some (b, r.roleOf p.id) := by
  have htext := h.id p ((h.mem_pages_iff howns.run).1 hp).1
  have hst : (⟨b, r.pages.map Page.id⟩ : Stretch) ∈ (ofSurvey survey).1.stretches :=
    h.mem_stretches_ofSurvey_iff.2 ⟨i, r, howns, rfl⟩
  rw [roleOf?_of_mem hst htext (List.mem_map_of_mem hp), PageRun.roleOf, howns.run.startId,
    howns.run.finishId]

/-- A page that a battery owns is in the run of the battery, which is accepted. -/
theorem exists_of_roleOf? {role : LoopRole}
    (hrole : (ofSurvey survey).1.roleOf? id = some (b, role)) :
    ∃ i r p, survey.OwnsAt i b r ∧ p ∈ r.pages ∧ p.id = id := by
  obtain ⟨v, hv, howner⟩ := Option.bind_eq_some_iff.1 hrole
  obtain rfl : v = id := by cases id <;> cases hv <;> rfl
  obtain ⟨st, hst, rfl, hamong, -⟩ := exists_of_ownerOf? howner
  obtain ⟨i, r, howns, hids⟩ := h.mem_stretches_ofSurvey_iff.1 hst
  rw [hids] at hamong
  obtain ⟨_, hw, hagree⟩ := List.any_eq_true.1 hamong
  obtain ⟨p, hp, rfl⟩ := List.mem_map.1 hw
  exact ⟨i, r, p, howns, hp,
    Value.eq_of_agrees (h.id p ((h.mem_pages_iff howns.run).1 hp).1) hagree⟩

/-- An accepted battery owns the pages of its run, in their roles, and no others. -/
theorem roleOf?_eq_some_iff (howns : survey.OwnsAt i b r) {role : LoopRole} :
    (ofSurvey survey).1.roleOf? id = some (b, role) ↔ r.Plays id role := by
  constructor
  · intro hrole
    obtain ⟨j, r', p, howns', hp, rfl⟩ := h.exists_of_roleOf? hrole
    rw [h.run_unique howns'.run howns.run] at hp
    rw [h.roleOf?_of_ownsAt howns hp, Option.some.injEq, Prod.mk.injEq] at hrole
    exact (h.plays_iff howns.run hp).2 hrole.2.symm
  · intro hplays
    obtain ⟨p, hp, rfl⟩ : ∃ p ∈ r.pages, p.id = id := by
      cases role with
      | start => exact ⟨r.start, by simp [PageRun.pages], hplays.symm⟩
      | interior =>
        obtain ⟨p, hp, rfl⟩ := hplays
        exact ⟨p, by simp [PageRun.pages, hp], rfl⟩
      | finish => exact ⟨r.finish, by simp [PageRun.pages], hplays.symm⟩
    rw [h.roleOf?_of_ownsAt howns hp, (h.plays_iff howns.run hp).1 hplays]

end PagesApart

/-- Batteries own runs of pages. The roles of a survey are always found. A battery is accepted
exactly if both its pages exist, its start page comes first and no page from the one to the other is
in the run of a battery accepted before it. An accepted battery has a run, of whose pages it owns
the first as its start, the last as its end and the others as its interior; it owns no other page,
and no page is in two runs. -/
theorem batteries_own_runs (h : survey.PagesApart) :
    (∀ d, (announce survey).perform d =
      (.ok (), { d with events := d.events ++ (ofSurvey survey).2 })) ∧
    (∀ i b, survey.batteries[i]? = some b → (survey.AcceptsAt i b ↔ ∃ start finish,
      survey.page? b.startPageId = some start ∧ survey.page? b.endPageId = some finish ∧
        start.rank < finish.rank ∧ ∀ p ∈ survey.pages, start.rank ≤ p.rank → p.rank ≤ finish.rank →
          ∀ j c r, j < i → survey.OwnsAt j c r → p ∉ r.pages)) ∧
    (∀ i b, survey.AcceptsAt i b → ∃ r, survey.OwnsAt i b r ∧
      ∀ id role, (ofSurvey survey).1.roleOf? id = some (b, role) ↔ r.Plays id role) ∧
    (∀ i j b c r r', survey.OwnsAt i b r → survey.OwnsAt j c r' → i ≠ j →
      ∀ p ∈ r.pages, p ∉ r'.pages) ∧
    (∀ id b role, (ofSurvey survey).1.roleOf? id = some (b, role) →
      ∃ i, survey.AcceptsAt i b) := by
  refine ⟨h.announce_eq, fun i b hb => ?_, fun i b hb => ?_,
    fun i j b c r r' => h.disjoint_of_ownsAt, fun id b role hrole => ?_⟩
  · rw [h.acceptsAt_iff hb]
    constructor
    · rintro ⟨r, hr, hfree⟩
      obtain ⟨hstart, hfinish, hlt⟩ := h.ends_of_hasRun hr
      exact ⟨r.start, r.finish, hstart, hfinish, hlt, fun p hp hle hle' =>
        hfree p ((h.mem_pages_iff hr).2 ⟨hp, hle, hle'⟩)⟩
    · rintro ⟨start, finish, hstart, hfinish, hlt, hfree⟩
      obtain ⟨inner, hr⟩ := h.exists_run hstart hfinish hlt
      refine ⟨_, hr, fun p hp => ?_⟩
      obtain ⟨hmem, hle, hle'⟩ := (h.mem_pages_iff hr).1 hp
      exact hfree p hmem hle hle'
  · obtain ⟨r, hr, -⟩ := (h.acceptsAt_iff hb.1).1 hb
    have howns : survey.OwnsAt i b r := ⟨hb, hr⟩
    exact ⟨r, howns, fun id role => h.roleOf?_eq_some_iff howns⟩
  · obtain ⟨i, r, p, howns, -, -⟩ := h.exists_of_roleOf? hrole
    exact ⟨i, howns.accepted⟩

end Survey

namespace Sample.BrandTracker

/-- The battery over the brands, from one page to another. -/
def spanning (start finish : String) : Battery :=
  { brands with startPageId := .text start, endPageId := .text finish }

/-- The survey with a battery that dangles, one that is inverted, the one over the brands, and one
that begins where that one ends. -/
def crowded : Survey :=
  { survey .null with
    batteries := [spanning "p_screen" "p_gone", spanning "p_thanks" "p_screen", brands,
      spanning "p_brand_buy" "p_thanks"] }

end Sample.BrandTracker

open Sample BrandTracker in
/-- Of four batteries, the third one is accepted. -/
theorem Survey.batteries_own_runs_crowded :
    crowded.PagesApart ∧ ¬crowded.AcceptsAt 0 (spanning "p_screen" "p_gone") ∧
      ¬crowded.AcceptsAt 1 (spanning "p_thanks" "p_screen") ∧ crowded.AcceptsAt 2 brands ∧
        ¬crowded.AcceptsAt 3 (spanning "p_brand_buy" "p_thanks") ∧
          (ofSurvey crowded).1.roleOf? (.text "p_brand_buy") = some (brands, .finish) := by
  have hapart : crowded.PagesApart :=
    ⟨⟨typed.pageId, typed.pageIndex⟩, distinct.pageIds, distinct.pageIndexes⟩
  obtain ⟨-, haccepts, howns, -, -⟩ := batteries_own_runs hapart
  have hlost : ¬crowded.AcceptsAt 0 (spanning "p_screen" "p_gone") := by
    intro hacc
    obtain ⟨_, _, _, hfinish, -⟩ := (haccepts 0 _ rfl).1 hacc
    cases hfinish
  have hback : ¬crowded.AcceptsAt 1 (spanning "p_thanks" "p_screen") := by
    intro hacc
    obtain ⟨start, finish, hstart, hfinish, hlt, -⟩ := (haccepts 1 _ rfl).1 hacc
    cases hstart
    cases hfinish
    revert hlt
    decide
  have hbrands : crowded.AcceptsAt 2 brands := by
    refine (haccepts 2 _ rfl).2 ⟨_, _, rfl, rfl, by decide, fun p _ _ _ j c r hj hr => ?_⟩
    have hc := hr.accepted.1
    match j, hj with
    | 0, _ =>
      cases hc
      exact absurd hr.accepted hlost
    | 1, _ =>
      cases hc
      exact absurd hr.accepted hback
  obtain ⟨r, hr, hroles⟩ := howns 2 brands hbrands
  refine ⟨hapart, hlost, hback, hbrands, fun hacc => ?_, (hroles _ _).2 hr.run.finishId.symm⟩
  -- The end page of the brands is the start page of the last battery.
  obtain ⟨start, finish, hstart, hfinish, hlt, hfree⟩ := (haccepts 3 _ rfl).1 hacc
  obtain ⟨-, hend, -⟩ := hapart.ends_of_hasRun hr.run
  obtain rfl : start = r.finish := Option.some.inj (hstart.symm.trans hend)
  exact hfree r.finish (hapart.page?_eq_some_iff.1 hend).1 (Int.le_refl _) (Int.le_of_lt hlt) 2
    brands r (by decide) hr (by simp [PageRun.pages])

end Questionnaire
