import Mathlib.Algebra.GroupWithZero.Nat
import Mathlib.Algebra.Order.BigOperators.Group.List
import Mathlib.Algebra.Order.Group.Nat
import Mathlib.Data.List.Count
import Mathlib.Data.Nat.Find
import Questionnaire.Proofs.Route.Faults
import Questionnaire.Proofs.Route.Persistence
import Questionnaire.Proofs.Route.Selections

/-!
# Forward walks get on

A respondent goes forward from the first page, and between two calls the answers and the embedded
data are written anew, in any way (`Navigator.travel`). So pages vanish and appear, items become
stale, and batteries lead back to their start pages. Still the walk comes to its end
(`Navigator.travel_completes`).

Leaving a page completes the survey, leads to a later page, or leads to the start of the page's own
battery with a greater cursor (`Navigator.GetsOn`). No cursor falls meanwhile, so the measure of a
walk is lexicographic: first the sum of all cursors (`Session.cursorSum`), then the place of the
page. After `k` calls, `k` is no more than the number of pages times the sum of the cursors plus the
number of pages before the present one (`Navigator.Underway`). The cursors are bounded by the items
of the plans, and those by what the survey has to offer (`Planning.exists_length_le`).
-/

namespace Questionnaire

open Flow

/-! ## How many items there can be -/

/-- A battery never has more items than a number, whatever the answers. -/
theorem Planning.exists_length_le (b : Battery) (survey : Survey) :
    ∃ n, ∀ responses, (sourceItems b survey responses).length ≤ n := by
  unfold sourceItems
  split
  · exact ⟨_, fun _ => Nat.le_refl _⟩
  · split
    · exact ⟨0, fun _ => Nat.le_refl 0⟩
    · next q _ =>
      -- No choice is selected twice.
      refine ⟨q.choices.length, fun responses => ?_⟩
      rw [List.length_map]
      refine ((nodup_selectedChoices _ []).subperm fun c hc => ?_).length_le
      obtain ⟨-, v, -, hv⟩ := mem_selectedChoices.1 hc
      exact List.mem_of_find?_eq_some hv

/-! ## Sums over the plans of a session -/

namespace Session

variable {survey : Survey} {s t u : Session} {b : Battery}

/-- The cursor of the plan of a battery; zero without a plan. -/
def cursorOf (s : Session) (b : Battery) : Nat :=
  ((s.plan? b.id).map fun p => p.cursor.wholePart.toNat).getD 0

/-- The sum of the cursors of all plans. -/
def cursorSum (survey : Survey) (s : Session) : Nat := (survey.batteries.map s.cursorOf).sum

/-- The total number of items of all plans. -/
def itemCount (survey : Survey) (s : Session) : Nat :=
  (survey.batteries.map fun b => (s.itemsOf b).length).sum

theorem cursorOf_eq {p : LoopPlan} {c : Nat} (hp : s.plan? b.id = some p) (hc : p.CursorAt c) :
    s.cursorOf b = c := by
  have hwhole : (Value.int c).wholePart = c := rfl
  rw [cursorOf, hp, Option.map_some, Option.getD_some, hc.cursor, hwhole, Int.toNat_natCast]

theorem cursorOf_le (hs : s.Counted) (b : Battery) : s.cursorOf b ≤ (s.itemsOf b).length := by
  cases hp : s.plan? b.id with
  | none => simp [cursorOf, hp]
  | some p =>
    obtain ⟨c, hc⟩ := hs _ p hp
    rw [cursorOf_eq hp hc, itemsOf, hp]
    exact hc.le_length

/-- Cursors are among the items. -/
theorem cursorSum_le (hs : s.Counted) : s.cursorSum survey ≤ s.itemCount survey :=
  List.sum_le_sum fun b _ => cursorOf_le hs b

/-- Whether the plan under an id is followed, with a cursor that does not fall. -/
def Upholds (u s : Session) (id : Id) : Prop :=
  ∀ p, u.plan? id = some p → ∃ q, s.plan? id = some q ∧ p.Follows False q

theorem Upholds.cursorOf_le (h : u.Upholds s b.id) : u.cursorOf b ≤ s.cursorOf b := by
  cases hp : u.plan? b.id with
  | none => simp [cursorOf, hp]
  | some p =>
    obtain ⟨q, hq, hfollows⟩ := h p hp
    obtain ⟨c, n, hc, hn, hle⟩ := hfollows.cursor
    rw [cursorOf_eq hp hc, cursorOf_eq hq hn]
    exact hle.resolve_left not_false

theorem cursorSum_le_of_upholds (h : ∀ b ∈ survey.batteries, u.Upholds s b.id) :
    u.cursorSum survey ≤ s.cursorSum survey :=
  List.sum_le_sum fun b hb => (h b hb).cursorOf_le

theorem cursorSum_lt_of_upholds (h : ∀ b ∈ survey.batteries, u.Upholds s b.id)
    (hb : b ∈ survey.batteries) (hlt : u.cursorOf b < s.cursorOf b) :
    u.cursorSum survey < s.cursorSum survey :=
  List.sum_lt_sum _ _ (fun b hb => (h b hb).cursorOf_le) ⟨b, hb, hlt⟩

/-- Wherever moving forward leads, the plan of any id is followed. -/
theorem Sequel.upholds (h : u.Sequel survey (fun _ => False) s) (hu : u.Orderly survey) (id : Id) :
    u.Upholds s id := by
  intro p hp
  obtain ⟨b, hb, hagree, -, -⟩ := hu id p hp
  have hsame : ∀ v : Session, v.plan? id = v.plan? b.id := fun v =>
    Register.get?_congr v.plans hagree
  rw [hsame] at hp ⊢
  exact h.plans b hb p hp

/-- A session whose plans have no more items than the survey has to offer. -/
def Bounded (survey : Survey) (limit : Battery → Nat) (s : Session) : Prop :=
  ∀ b ∈ survey.batteries, (s.itemsOf b).length ≤ limit b

theorem Bounded.cursorSum_le {limit : Battery → Nat} (h : s.Bounded survey limit)
    (hs : s.Counted) : s.cursorSum survey ≤ (survey.batteries.map limit).sum :=
  List.sum_le_sum fun b hb => (s.cursorOf_le hs b).trans (h b hb)

theorem Bounded.setPlan {limit : Battery → Nat} {p : LoopPlan} (h : s.Bounded survey limit)
    (hapart : survey.BatteriesApart) (hb : b ∈ survey.batteries) (hp : p.items.length ≤ limit b) :
    (s.setPlan b.id p).Bounded survey limit := by
  intro c hc
  rw [itemsOf, plan?_setPlan]
  split
  · next hagree =>
    cases hapart.eq hc hb hagree
    exact hp
  · exact h c hc

/-- Plans go on to have no more items than the survey has to offer. -/
theorem Bounded.law (h : survey.Typed) (hapart : survey.BatteriesApart) {limit : Battery → Nat}
    (hlimit : ∀ b responses, (Planning.sourceItems b survey responses).length ≤ limit b)
    (back : Battery → Prop) :
    CursorLaw survey back fun s => s.Bounded survey limit ∧ s.PlansTyped where
  cursor hs _ hp := hs.2.cursor _ _ hp
  made hs hb hnone hp := ⟨hs.1.setPlan hapart hb.mem (hp.items.length_le.trans (hlimit _ _)),
    (plansTypedLaw h).made hs.2 hb hnone hp⟩
  moved {s b p c n} hs hb hp hc hn _ := by
    refine ⟨hs.1.setPlan hapart hb.mem ?_, (plansTypedLaw h).moved hs.2 hb hp hc hn (.inl trivial)⟩
    have hle := hs.1 b hb.mem
    rwa [itemsOf, hp] at hle

end Session

namespace Navigator

/-! ## How a call gets on -/

/-- How leaving a page gets on: it completes the survey, it leads to a later page, or it leads to
the start page of the page's own battery with a greater cursor that is still below the number of
items. -/
inductive GetsOn (nav : Navigator) (p : Page) (s : Session) : Landing → Session → Prop
  | completes (t : Session) : GetsOn nav p s .finished t
  | later {q : Page} (i : Option Iteration) (t : Session) : q ∈ nav.pages → p.rank < q.rank →
      GetsOn nav p s (.on q.id i) t
  | again {b : Battery} {role : LoopRole} {plan : LoopPlan} {c n : Nat} (i : Option Iteration)
      {t : Session} : nav.roles.roleOf? p.id = some (b, role) → s.plan? b.id = some plan →
      plan.CursorAt c → c < n → n < plan.items.length → t.plan? b.id = some (plan.moved n) →
      GetsOn nav p s (.on b.startPageId i) t

variable {nav : Navigator} {s : Session} {p : Page}

/-- Nothing but the plans matters to how a call gets on. -/
theorem GetsOn.same {l : Landing} {s' t : Session} (h : nav.GetsOn p s l t)
    (hplans : s'.plans = s.plans) : nav.GetsOn p s' l t := by
  cases h with
  | completes => exact .completes t
  | later i _ hq hlt => exact .later i t hq hlt
  | again i hrole hplan hc hcn hn hmoved =>
    exact .again i hrole (by rwa [Session.plan?, hplans]) hc hcn hn hmoved

/-- Leaving a page gets on. -/
theorem Oriented.nextPage_getsOn (h : nav.Oriented) (hs : s.PlansTyped) (hp : p ∈ nav.pages) :
    Ensures (s.Planned s.plan?) (nav.nextPage p.id) fun l t => nav.GetsOn p s l t := by
  by_cases hlive : nav.HasLiveNext s p.id
  · obtain ⟨b, plan, c, hrole, hplan, hc, item, hitem, hamong⟩ := hlive
    have hlt : c + 1 < plan.items.length := by
      have hpos := List.length_pos_of_mem hitem
      rw [List.length_drop] at hpos
      omega
    have hfirst := (LoopPlan.firstLive_lt_iff (by omega)).2 ⟨item, hitem, hamong⟩
    obtain ⟨before, after, hsplit⟩ := List.append_of_mem hp
    have howner : nav.roles.ownerOf? p.id = some (b, .finish) := (h.roleOf?_eq hp).symm.trans hrole
    refine .bind (h.yields_around hsplit).ensures fun x => .bind ((h.yields_continueLoop_live hp
      howner hplan hc (by omega) (hs.keys_not_compound hplan)).ensures.mono (fun _ ht => ht.1)
        fun _ _ ho => ho) fun o => .given (fun _ ho => ho.2) fun ho => ?_
    rw [List.getElem?_eq_getElem hfirst] at ho
    subst ho
    refine .pure fun t ht => .again _ hrole hplan hc LoopPlan.le_firstLive hfirst ?_
    rw [ht.1.plan?, Plans.put_self]
  · refine ((h.nextPage_behind hp (h.continueLoop_of_not_live hs hp hlive)).and
      (h.nextPage_onPage hp)).mono (fun _ ht => ht) fun l t ⟨hbehind, hl⟩ => ?_
    rcases hl with rfl | ⟨q, hq, i, rfl, -⟩
    · exact .completes t
    · obtain ⟨q', hq', hid, hlt⟩ := hbehind q.id (h.inOrder.given?_id hq)
      cases h.inOrder.eq_of_id hq' hq hid
      exact .later i t hq hlt

/-! ## Walks among changing answers -/

/-- What happens between two calls: the answers and the embedded data are written anew, and the next
call draws from a generator of its own. -/
structure Interlude where
  responses : Register Value
  embedded : Register Value
  generator : Generator

/-- The session after the answers and the embedded data were written anew. -/
def Interlude.rewrite (x : Interlude) (s : Session) : Session :=
  { s with responses := x.responses, embedded := x.embedded }

/-- Where a respondent has got after a number of calls to leave the page last shown, the first page
being the start. Where there is no page left, or a call failed, nothing more happens. -/
def travel (nav : Navigator) (interludes : Nat → Interlude) (d : Desk) :
    Nat → Except Fault Landing × Desk
  | 0 => nav.firstPage.perform d
  | k + 1 =>
    match nav.travel interludes d k with
    | (.error e, d') => (.error e, d')
    | (.ok l, d') =>
      match l.pageId with
      | none => (.ok l, d')
      | some page =>
        let x := interludes k
        (nav.nextPage page).perform ⟨x.rewrite d'.session, x.generator, d'.events⟩

/-- A session with the answers and the embedded data that call number `k` finds; the first page is
reached by call number 0. -/
def written (interludes : Nat → Interlude) (s : Session) : Nat → Session
  | 0 => s
  | k + 1 => (interludes k).rewrite s

/-- Where a respondent may be after `k` calls: past the last page, or on a page, and then `k` is no
more than the measure of the walk. -/
structure Underway (nav : Navigator) (limit : Battery → Nat) (k : Nat) (l : Landing) (s : Session) :
    Prop where
  typed : s.PlansTyped
  orderly : s.Orderly nav.survey
  bounded : s.Bounded nav.survey limit
  place : l = .finished ∨ ∃ p ∈ nav.pages, ∃ i, l = .on p.id i ∧
    k ≤ nav.pages.length * s.cursorSum nav.survey + nav.pagesBefore p.rank

theorem pagesBefore_lt_length (hp : p ∈ nav.pages) : nav.pagesBefore p.rank < nav.pages.length :=
  List.countP_lt_length_iff.2 ⟨p, hp, decide_eq_false (Int.lt_irrefl _)⟩

/-- A call that gets on is counted by the measure. -/
theorem GetsOn.measure {k : Nat} {l : Landing} {t : Session} (h : nav.Oriented)
    (hp : p ∈ nav.pages) (hgets : nav.GetsOn p s l t)
    (hupheld : ∀ id, s.Upholds t id)
    (hk : k ≤ nav.pages.length * s.cursorSum nav.survey + nav.pagesBefore p.rank) :
    l = .finished ∨ ∃ q ∈ nav.pages, ∃ i, l = .on q.id i ∧
      k + 1 ≤ nav.pages.length * t.cursorSum nav.survey + nav.pagesBefore q.rank := by
  cases hgets with
  | completes => exact .inl rfl
  | @later q i _ hq hlt =>
    refine .inr ⟨q, hq, i, rfl, ?_⟩
    have hsum : s.cursorSum nav.survey ≤ t.cursorSum nav.survey :=
      Session.cursorSum_le_of_upholds fun b _ => hupheld b.id
    have hmul := Nat.mul_le_mul_left nav.pages.length hsum
    have hbefore := pagesBefore_lt hp hlt (Int.le_refl p.rank)
    omega
  | @again b role plan c n i _ hrole hplan hc hcn hn hmoved =>
    have howner := (h.roleOf?_eq hp).symm.trans hrole
    obtain ⟨⟨start, hstart, hsid, -⟩, -⟩ := h.exists_ends (h.accepts howner)
    refine .inr ⟨start, hstart, i, by rw [hsid], ?_⟩
    have hsum : s.cursorSum nav.survey + 1 ≤ t.cursorSum nav.survey :=
      Session.cursorSum_lt_of_upholds (fun b _ => hupheld b.id) (h.mem_batteries howner) (by
        rw [Session.cursorOf_eq hplan hc,
          Session.cursorOf_eq hmoved (LoopPlan.cursorAt_moved (Nat.le_of_lt hn))]
        exact hcn)
    have hmul := Nat.mul_le_mul_left nav.pages.length hsum
    have hbefore := pagesBefore_lt_length hp
    rw [Nat.mul_add, Nat.mul_one] at hmul
    omega

section Steps
variable (h : nav.Oriented) (hapart : nav.survey.BatteriesApart) {limit : Battery → Nat}
  (hlimit : ∀ b responses, (Planning.sourceItems b nav.survey responses).length ≤ limit b)
  (hs : s.PlansTyped) (horderly : s.Orderly nav.survey) (hbounded : s.Bounded nav.survey limit)
include h hapart hlimit hs horderly hbounded

/-- Plans are followed, and have their types and bounds, after work that keeps what moving forward
keeps. -/
theorem followed {α : Type} {f : Flow α}
    (hf : ∀ {P}, CursorLaw nav.survey (fun _ => False) P → Keeps P f) :
    Ensures (· = s) f fun _ t => s.Sequel nav.survey (fun _ => False) t ∧
      t.Bounded nav.survey limit ∧ t.PlansTyped := by
  have hsequel : Ensures (· = s) f fun _ t => s.Sequel nav.survey (fun _ => False) t :=
    (hf (Session.Sequel.law hapart _ s)).startingAt (.refl horderly)
  have hlimited : Ensures (· = s) f fun _ t => t.Bounded nav.survey limit ∧ t.PlansTyped :=
    (hf (Session.Bounded.law h.typed hapart hlimit _)).startingAt ⟨hbounded, hs⟩
  exact hsequel.and hlimited

/-- The first page is a place to start from. -/
theorem firstPage_underway : Ensures (· = s) nav.firstPage fun l t => nav.Underway limit 0 l t := by
  have hfollowed := followed h hapart hlimit hs horderly hbounded fun law =>
    (preserves_firstPage law.arrival h.proper).keeps
  refine (h.firstPage_onPage.and hfollowed).mono (fun _ ht => ht)
    fun l t ⟨hl, hsequel, hbounded, htyped⟩ =>
      ⟨htyped, hsequel.orderly, hbounded, hl.imp_right ?_⟩
  rintro ⟨p, hp, i, rfl, -⟩
  exact ⟨p, hp, i, rfl, Nat.zero_le _⟩

/-- A call to leave a page is counted. -/
theorem nextPage_underway {k : Nat} (hp : p ∈ nav.pages)
    (hk : k ≤ nav.pages.length * s.cursorSum nav.survey + nav.pagesBefore p.rank) :
    Ensures (· = s) (nav.nextPage p.id) fun l t => nav.Underway limit (k + 1) l t ∧
      nav.GetsOn p s l t ∧ ∀ id, s.Upholds t id := by
  have hgets : Ensures (· = s) (nav.nextPage p.id) fun l t => nav.GetsOn p s l t :=
    (h.nextPage_getsOn hs hp).startingAt s.planned_self
  have hfollowed := followed h hapart hlimit hs horderly hbounded fun law =>
    (preserves_nextPage law h.proper p.id).keeps
  refine (hgets.and hfollowed).mono (fun _ ht => ht)
    fun l t ⟨hgets, hsequel, hbounded, htyped⟩ => ?_
  have hupheld := hsequel.upholds horderly
  exact ⟨⟨htyped, hsequel.orderly, hbounded, hgets.measure h hp hupheld hk⟩, hgets, hupheld⟩

end Steps

/-! ## The walk as a whole -/

section Walk
variable (h : nav.Oriented) (hapart : nav.survey.BatteriesApart) {limit : Battery → Nat}
  (hlimit : ∀ b responses, (Planning.sourceItems b nav.survey responses).length ≤ limit b)
  {interludes : Nat → Interlude} {d : Desk}
  (hjudged : ∀ k e t, nav.travel interludes d k = (.error e, t) →
    ¬nav.Unjudged (written interludes d.session k) e)
include h hapart hlimit hjudged

/-- Every call has a result and is counted, and gets on from where the calls before it led. -/
theorem travel_succ {k : Nat} {l : Landing} {t : Desk}
    (htravel : nav.travel interludes d k = (.ok l, t)) (ht : nav.Underway limit k l t.session) :
    ∃ l' t', nav.travel interludes d (k + 1) = (.ok l', t') ∧
      nav.Underway limit (k + 1) l' t'.session ∧ (∀ id, t.session.Upholds t'.session id) ∧
      (l = .finished ∨
        ∃ p ∈ nav.pages, l.pageId = some p.id ∧ nav.GetsOn p t.session l' t'.session) := by
  rcases ht.place with rfl | ⟨p, hp, i, rfl, hk⟩
  · refine ⟨.finished, t, ?_, ⟨ht.typed, ht.orderly, ht.bounded, .inl rfl⟩, fun id p hp => ?_,
      .inl rfl⟩
    · simp [travel, htravel, Landing.finished]
    · obtain ⟨c, hc⟩ := ht.typed.cursor id p hp
      exact ⟨p, hp, .refl hc⟩
  · have hpage : (Landing.on p.id i).pageId = some p.id := h.inOrder.given?_id hp
    let s := (interludes k).rewrite t.session
    have hs : s.PlansTyped := ht.typed.same rfl
    have hcall : nav.travel interludes d (k + 1) =
        (nav.nextPage p.id).perform ⟨s, (interludes k).generator, t.events⟩ := by
      rw [travel, htravel]
      simp only [hpage, s]
    rcases hperform : (nav.nextPage p.id).perform ⟨s, (interludes k).generator, t.events⟩ with
      ⟨e | l', t'⟩
    · have hfault := (h.nextPage_failsOnly hp).startingAt (.refl hs) _ e t' rfl hperform
      exact absurd hfault (hjudged (k + 1) e t' (hcall.trans hperform))
    · obtain ⟨hunderway, hgets, hupheld⟩ := nextPage_underway h hapart hlimit hs
        (ht.orderly.same rfl) ht.bounded hp hk _ l' t' rfl hperform
      exact ⟨l', t', hcall.trans hperform, hunderway, hupheld, .inr ⟨p, hp, hpage, hgets.same rfl⟩⟩

variable (hs : d.session.PlansTyped) (horderly : d.session.Orderly nav.survey)
  (hbounded : d.session.Bounded nav.survey limit)
include hs horderly hbounded

theorem exists_travel : ∀ k, ∃ l t, nav.travel interludes d k = (.ok l, t) ∧
    nav.Underway limit k l t.session
  | 0 => by
    rcases hperform : nav.firstPage.perform d with ⟨e | l, t⟩
    · have hfault := h.firstPage_failsOnly.startingAt (.refl hs) d e t rfl hperform
      exact absurd hfault (hjudged 0 e t hperform)
    · exact ⟨l, t, hperform,
        firstPage_underway h hapart hlimit hs horderly hbounded d l t rfl hperform⟩
  | k + 1 => by
    obtain ⟨l, t, htravel, ht⟩ := exists_travel k
    obtain ⟨l', t', htravel', ht', -⟩ := travel_succ h hapart hlimit hjudged htravel ht
    exact ⟨l', t', htravel', ht'⟩

end Walk

/-- While there is a page to leave, the number of calls is less than the number of pages times one
more than the sum of the cursors. -/
theorem Underway.lt_of_open {limit : Battery → Nat} {k : Nat} {l : Landing}
    (h : nav.Underway limit k l s) (hl : l ≠ .finished) :
    k < nav.pages.length * (1 + s.cursorSum nav.survey) := by
  obtain ⟨p, hp, -, -, hk⟩ := h.place.resolve_left hl
  have hbefore := pagesBefore_lt_length hp
  rw [Nat.mul_add, Nat.mul_one]
  omega

/-- A forward walk always progresses. A respondent starts on the first page without plans and goes
on from the page last reached, while the answers and the embedded data are written anew between the
calls in any way. As long as no call fails for want of a verdict on a page, every call has a result.
It completes the survey, leads to a later page, or leads to the start page of the battery of the
page that was left, with a greater cursor that is still below the number of items. Plans are kept
with their items, and no cursor ever falls. The survey is completed after at most as many calls as
there are pages, times one more than the total number of items of the plans made. -/
theorem travel_completes {survey : Survey} (htyped : survey.Typed) (hdistinct : survey.Distinct)
    (skipHidden quiet : Bool) {d : Desk} (hnew : ∀ id, d.session.plan? id = none)
    (interludes : Nat → Interlude)
    (hjudged : ∀ k e t, (ofSurvey survey skipHidden quiet).travel interludes d k = (.error e, t) →
      ¬(ofSurvey survey skipHidden quiet).Unjudged (written interludes d.session k) e) :
    let nav := ofSurvey survey skipHidden quiet
    ∃ (l : Nat → Landing) (t : Nat → Desk),
      (∀ k, nav.travel interludes d k = (.ok (l k), t k)) ∧
      (∀ k, l k = .finished ∨ ∃ p ∈ nav.pages, (l k).pageId = some p.id ∧
        nav.GetsOn p (t k).session (l (k + 1)) (t (k + 1)).session) ∧
      (∀ k id p, (t k).session.plan? id = some p →
        ∃ q, (t (k + 1)).session.plan? id = some q ∧ p.Follows False q) ∧
      ∃ n ≤ survey.pages.length * (1 + (t n).session.itemCount survey), l n = .finished := by
  intro nav
  have h : nav.Oriented := .ofSurvey htyped hdistinct.pageIds hdistinct.pageIndexes skipHidden quiet
  have hapart : nav.survey.BatteriesApart := htyped.batteriesApart hdistinct
  have hperm : nav.pages.Perm survey.pages := sortedBy_perm _ _
  choose limit hlimit using fun b => Planning.exists_length_le b survey
  have hbounded : d.session.Bounded survey limit := fun b _ => by simp [Session.itemsOf, hnew]
  choose l t htravel hunderway using exists_travel h hapart hlimit hjudged
    (.of_forall_none hnew) (Session.orderly_of_forall_none hnew) hbounded
  -- What the next call does is told of the landing and the desk that were chosen for it.
  have hstep : ∀ k, (∀ id, (t k).session.Upholds (t (k + 1)).session id) ∧
      (l k = .finished ∨ ∃ p ∈ nav.pages, (l k).pageId = some p.id ∧
        nav.GetsOn p (t k).session (l (k + 1)) (t (k + 1)).session) := by
    intro k
    obtain ⟨l', t', htravel', -, hupheld, hgets⟩ :=
      travel_succ h hapart hlimit hjudged (htravel k) (hunderway k)
    obtain ⟨hl, ht⟩ := Prod.mk.inj ((htravel (k + 1)).symm.trans htravel')
    cases hl
    cases ht
    exact ⟨hupheld, hgets⟩
  refine ⟨l, t, htravel, fun k => (hstep k).2, fun k id p hp => (hstep k).1 id p hp, ?_⟩
  have hends : ∃ n, l n = .finished := by
    by_contra hopen
    let n := nav.pages.length * (1 + (survey.batteries.map limit).sum)
    have hlt := (hunderway n).lt_of_open fun hl => hopen ⟨n, hl⟩
    have hle : (t n).session.cursorSum survey ≤ (survey.batteries.map limit).sum :=
      (hunderway n).bounded.cursorSum_le (hunderway n).typed.cursor
    exact absurd hlt (Nat.not_lt.2 (Nat.mul_le_mul_left _ (Nat.add_le_add_left hle 1)))
  have hfirst := Nat.find_spec hends
  refine ⟨Nat.find hends, ?_, hfirst⟩
  cases hn : Nat.find hends with
  | zero => exact Nat.zero_le _
  | succ m =>
    have hopen : l m ≠ .finished := Nat.find_min hends (by omega)
    have hlt := (hunderway m).lt_of_open hopen
    have hsum : (t m).session.cursorSum survey ≤ (t (m + 1)).session.itemCount survey :=
      (Session.cursorSum_le_of_upholds fun b _ => (hstep m).1 b.id).trans
        (Session.cursorSum_le (hunderway (m + 1)).typed.cursor)
    have hmul := Nat.mul_le_mul_left nav.pages.length (Nat.add_le_add_left hsum 1)
    have hlength := hperm.length_eq
    rw [← hlength]
    exact Nat.le_trans hlt hmul

end Navigator

namespace Sample.BrandTracker

/-- Once the respondent has rated the first brand, all answers are taken back. -/
def forgetful : Nat → Navigator.Interlude
  | 0 => ⟨aware.responses, ∅, .ofScript [0]⟩
  | _ + 1 => ⟨∅, ∅, .ofScript [0]⟩

theorem verdict_forgetful (k : Nat) : ∀ p ∈ pages,
    (navigator.verdict (Navigator.written forgetful aware k) p).isOk = true := by
  have haware : ∀ p ∈ pages, (navigator.verdict aware p).isOk = true := by decide +kernel
  have hforgotten : ∀ p ∈ pages,
      (navigator.verdict ((forgetful 1).rewrite aware) p).isOk = true := by decide +kernel
  match k with
  | 0 | 1 => exact haware
  | k + 2 => exact hforgotten

end Sample.BrandTracker

open Sample BrandTracker in
/-- A respondent who is rating the first of two brands when the answer that the brands were taken
from is taken back. -/
theorem Navigator.travel_completes_forgetful :
    let nav := ofSurvey (BrandTracker.survey (.int 2)) true false
    ∃ n t, nav.travel forgetful ⟨aware, .ofScript [0], []⟩ n = (.ok .finished, t) ∧
      n ≤ 7 * (1 + t.session.itemCount (BrandTracker.survey (.int 2))) := by
  intro nav
  have hnew : ∀ id, aware.plan? id = none := Register.get?_empty
  obtain ⟨l, t, htravel, -, -, n, hn, hl⟩ := travel_completes typed distinct true false
    (d := ⟨aware, .ofScript [0], []⟩) hnew forgetful (by
      rintro k e t - ⟨-, p, hp, he⟩
      rw [ofSurvey_survey] at hp he
      have hok := verdict_forgetful k p hp
      rw [he] at hok
      cases hok)
  exact ⟨n, t n, (htravel n).trans (by rw [hl]), hn⟩

end Questionnaire
