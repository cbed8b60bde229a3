import Questionnaire.Proofs.Route.Faults
import Questionnaire.Proofs.Survey.Findings

/-!
# The pages that a search meets

Arriving at a page is a search: the page is where the respondent lands, or its battery has nothing
to show and the search goes on with another page. A search from behind is one as well. What a search
does on one page is a turn (`Navigator.arrivalTurn`, `Navigator.returnTurn`), and a search with all
its turns is a trail (`Navigator.Trail`): it has the pages that the search is on, one after the
other, and exists only if the search comes to an end.

A battery is left behind its last page, or before its first one, so a search goes on in one
direction (`Oriented.arrivalTurn_later`, `Oriented.returnTurn_earlier`). So it ends and is on no
page twice (`Oriented.exists_trail`). For that the pages must stand in a strict order, and an audit
without errors sees to it (`Navigator.searches_end`) as long as no two pages have the same id. With
two pages of one id a search may come back to where it was, or never end
(`Navigator.search_returns`).
-/

namespace Questionnaire

open Flow

namespace Navigator

/-! ## Trails -/

/-- What a search finds out on one page: where the respondent lands, or the page to go on with. -/
inductive Turn
  | lands (l : Landing)
  | goesOn (o : Option Id)
  deriving DecidableEq

/-- A search with the pages that it is on one after the other, and what it comes to. Where there is
no page to go on with, the respondent lands beyond all pages. -/
inductive Trail (turn : Id → Flow Turn) (beyond : Landing) :
    Option Id → Desk → List Id → Except Fault Landing × Desk → Prop
  | beyond (d : Desk) : Trail turn beyond none d [] (.ok beyond, d)
  | lands {id : Id} {d d' : Desk} {l : Landing} :
      (turn id).perform d = (.ok (.lands l), d') →
      Trail turn beyond (some id) d [id] (.ok l, d')
  | fails {id : Id} {d d' : Desk} {e : Fault} :
      (turn id).perform d = (.error e, d') →
      Trail turn beyond (some id) d [id] (.error e, d')
  | goesOn {id : Id} {o : Option Id} {d d' : Desk} {ids : List Id}
      {r : Except Fault Landing × Desk} :
      (turn id).perform d = (.ok (.goesOn o), d') → Trail turn beyond o d' ids r →
      Trail turn beyond (some id) d (id :: ids) r

/-- A search goes one way only. -/
theorem Trail.unique {turn : Id → Flow Turn} {beyond : Landing} {o : Option Id} {d : Desk}
    {ids ids' : List Id} {r r' : Except Fault Landing × Desk} (h : Trail turn beyond o d ids r)
    (h' : Trail turn beyond o d ids' r') : ids' = ids ∧ r' = r := by
  induction h generalizing ids' r' with
  | beyond d =>
    cases h'
    exact ⟨rfl, rfl⟩
  | lands hturn =>
    cases h' with
    | lands hturn' =>
      cases hturn.symm.trans hturn'
      exact ⟨rfl, rfl⟩
    | fails hturn' => cases hturn.symm.trans hturn'
    | goesOn hturn' => cases hturn.symm.trans hturn'
  | fails hturn =>
    cases h' with
    | lands hturn' => cases hturn.symm.trans hturn'
    | fails hturn' =>
      cases hturn.symm.trans hturn'
      exact ⟨rfl, rfl⟩
    | goesOn hturn' => cases hturn.symm.trans hturn'
  | goesOn hturn _ ih =>
    cases h' with
    | lands hturn' => cases hturn.symm.trans hturn'
    | fails hturn' => cases hturn.symm.trans hturn'
    | goesOn hturn' hrest' =>
      cases hturn.symm.trans hturn'
      obtain ⟨rfl, rfl⟩ := ih hrest'
      exact ⟨rfl, rfl⟩

/-- A search that is led back to the page that it is on, with the session as it was, never ends. -/
theorem Trail.ne_of_recurs {turn : Id → Flow Turn} {beyond : Landing} {o : Option Id} {d : Desk}
    {ids : List Id} {r : Except Fault Landing × Desk} {id : Id} {s : Session}
    (h : Trail turn beyond o d ids r)
    (hturn : Yields (· = s) (turn id) fun t s' => t = .goesOn (some id) ∧ s' = s)
    (hd : d.session = s) : o ≠ some id := by
  induction h with
  | beyond d => exact nofun
  | lands hlands =>
    rintro ⟨⟩
    obtain ⟨_, _, hgoes, rfl, -⟩ := hturn _ hd
    cases hgoes.symm.trans hlands
  | fails hfails =>
    rintro ⟨⟩
    obtain ⟨_, _, hgoes, -⟩ := hturn _ hd
    cases hgoes.symm.trans hfails
  | goesOn hon _ ih =>
    rintro ⟨⟩
    obtain ⟨_, _, hgoes, rfl, hs⟩ := hturn _ hd
    cases hgoes.symm.trans hon
    exact ih hs rfl

variable (nav : Navigator)

/-- A turn of arriving: a battery that starts on the page gets its plan, and if there is nothing to
show for it the search goes on behind its end page. -/
def arrivalTurn (id : Id) : Flow Turn := do
  match ← nav.roleOf id with
  | some (b, .start) =>
    let (p, wasComplete) ← nav.enter b
    if !p.items.isEmpty && (wasComplete || !(← Flow.ofResult p.isComplete)) then
      pure (.lands (.on id (← Flow.ofResult p.iteration)))
    else
      Flow.log (.batterySkipped b.id)
      pure (.goesOn (← nav.nextInOrder b.endPageId))
  | _ => pure (.lands (.on id (← nav.iterationOf id)))

/-- A turn of arriving from behind: if the battery that owns the page has nothing to show, the
search goes on before its start page. -/
def returnTurn (id : Id) : Flow Turn := do
  match ← nav.roleOf id with
  | none => pure (.lands (.on id none))
  | some (b, _) =>
    match ← planOf b.id with
    | some p =>
      if p.items.isEmpty then pure (.goesOn (← nav.previousInOrder b.startPageId))
      else pure (.lands (.on id (← Flow.ofResult p.iteration)))
    | none => pure (.goesOn (← nav.previousInOrder b.startPageId))

/-- The pages of a search forward. -/
abbrev ArrivalTrail := Trail nav.arrivalTurn .finished

/-- The pages of a search backward. -/
abbrev ReturnTrail := Trail nav.returnTurn .nowhere

/-- Work that goes on with what a turn finds out. -/
def Turn.follow (f : Option Id → Flow Landing) : Turn → Flow Landing
  | .lands l => pure l
  | .goesOn o => f o

theorem arriveWithin_succ (fuel : Nat) (id : Id) : nav.arriveWithin (fuel + 1) (some id) =
    nav.arrivalTurn id >>= Turn.follow (nav.arriveWithin fuel) := by
  simp only [arriveWithin, arrivalTurn, bind_assoc]
  refine bind_congr fun o => ?_
  rcases o with _ | ⟨b, _ | _ | _⟩
  · simp [Turn.follow]
  · simp only [bind_assoc]
    refine bind_congr fun x => bind_congr fun done => ?_
    split <;> simp [Turn.follow]
  · simp [Turn.follow]
  · simp [Turn.follow]

theorem arriveBackWithin_succ (fuel : Nat) (id : Id) : nav.arriveBackWithin (fuel + 1) (some id) =
    nav.returnTurn id >>= Turn.follow (nav.arriveBackWithin fuel) := by
  simp only [arriveBackWithin, returnTurn, bind_assoc]
  refine bind_congr fun o => ?_
  rcases o with _ | ⟨b, role⟩
  · simp [Turn.follow]
  · simp only [bind_assoc]
    refine bind_congr fun plan => ?_
    rcases plan with _ | p
    · simp [Turn.follow]
    · dsimp only
      split <;> simp [Turn.follow]

/-! ## Searches go in one direction -/

variable {nav} {p : Page} {P : Session → Prop}

namespace Oriented

/-- A battery with nothing to show is passed over to a page behind it. -/
theorem arrivalTurn_later (h : nav.Oriented) (hp : p ∈ nav.pages) :
    Ensures (fun _ => True) (nav.arrivalTurn p.id)
      fun t _ => ∀ o, t = .goesOn o → nav.Behind p.rank o := by
  refine .bind (h.yields_roleOf hp).ensures fun role => .given (fun _ hs => hs.2) fun hrole => ?_
  split
  · next b =>
    rw [← h.roleOf?_eq hp] at hrole
    obtain ⟨p', hp', hid, -, -, -, -, finish, hfinish, hfid, hle⟩ := h.exists_bounds hrole.symm
    cases h.inOrder.eq_of_id hp' hp hid
    refine .bind (Q := fun _ _ => True) (fun _ _ _ _ _ => trivial) fun x => ?_
    refine .bind Keeps.ofResult fun _ => .ite (fun _ => ?_) fun _ => ?_
    · exact .bind Keeps.ofResult fun _ => .pure fun _ _ _ ht => nomatch ht
    · rw [← hfid]
      refine .bind Keeps.log fun _ => .bind (h.nextInOrder_behind hfinish) fun o =>
        .pure fun _ ho o' ht => ?_
      cases ht
      exact ho.mono hle
  · exact .bind (preserves_iterationOf p.id).keeps fun _ => .pure fun _ _ _ ht => nomatch ht

/-- A battery with nothing to show is passed over to a page before it. -/
theorem returnTurn_earlier (h : nav.Oriented) (hp : p ∈ nav.pages) :
    Ensures (fun _ => True) (nav.returnTurn p.id)
      fun t _ => ∀ o, t = .goesOn o → nav.Ahead p.rank o := by
  refine .bind (h.yields_roleOf hp).ensures fun role => .given (fun _ hs => hs.2) fun hrole => ?_
  split
  · exact .pure fun _ _ _ ht => nomatch ht
  · next b role =>
    rw [← h.roleOf?_eq hp] at hrole
    obtain ⟨p', hp', hid, start, hstart, hsid, hle, -⟩ := h.exists_bounds hrole.symm
    cases h.inOrder.eq_of_id hp' hp hid
    have hback : ∀ {P : Session → Prop}, Ensures P
        (do pure (Turn.goesOn (← nav.previousInOrder b.startPageId)))
        fun t _ => ∀ o, t = .goesOn o → nav.Ahead p.rank o := by
      intro P
      rw [← hsid]
      refine .bind (h.previousInOrder_ahead hstart) fun o => .pure fun _ ho o' ht => ?_
      cases ht
      intro id hid
      obtain ⟨q, hq, hqid, hlt⟩ := ho id hid
      exact ⟨q, hq, hqid, by omega⟩
    refine bind_planOf fun o => ?_
    split
    · refine .ite (fun _ => hback) fun _ => ?_
      exact .bind Keeps.ofResult fun _ => .pure fun _ _ _ ht => nomatch ht
    · exact hback

/-- A search whose turns lead to pages with a smaller measure ends before it runs out of fuel, and
is on no page twice. -/
theorem exists_trail (h : nav.Oriented) (measure : Page → Nat) {turn : Id → Flow Turn}
    {beyond : Landing} {search : Nat → Option Id → Flow Landing}
    (hnone : ∀ fuel, search fuel none = pure beyond)
    (hsome : ∀ fuel id, search (fuel + 1) (some id) = turn id >>= Turn.follow (search fuel))
    (hless : ∀ p ∈ nav.pages, Ensures (fun _ => True) (turn p.id) fun t _ =>
      ∀ id, t = .goesOn (some id) → ∃ q ∈ nav.pages, q.id = id ∧ measure q < measure p) :
    ∀ (fuel : Nat) (p : Page) (d : Desk), p ∈ nav.pages → measure p < fuel →
      ∃ ids, Trail turn beyond (some p.id) d ids ((search fuel (some p.id)).perform d) ∧
        ids.Nodup ∧ ∀ id ∈ ids, ∃ q ∈ nav.pages, q.id = id ∧ measure q ≤ measure p := by
  intro fuel
  induction fuel with
  | zero => intro p d _ hfuel; exact absurd hfuel (Nat.not_lt_zero _)
  | succ fuel ih =>
    intro p d hp hfuel
    have hself : ∀ id ∈ [p.id], ∃ q ∈ nav.pages, q.id = id ∧ measure q ≤ measure p :=
      fun id hid => ⟨p, hp, (List.mem_singleton.1 hid).symm, Nat.le_refl _⟩
    rw [hsome, perform_bind]
    rcases hturn : (turn p.id).perform d with ⟨e | l | o, d'⟩
    · exact ⟨[p.id], .fails hturn, List.nodup_singleton _, hself⟩
    · exact ⟨[p.id], .lands hturn, List.nodup_singleton _, hself⟩
    · have hmeasure := hless p hp d _ d' trivial hturn
      cases o with
      | none =>
        refine ⟨[p.id], .goesOn hturn ?_, List.nodup_singleton _, hself⟩
        show Trail turn beyond none d' [] ((search fuel none).perform d')
        rw [hnone]
        exact .beyond d'
      | some id =>
        obtain ⟨q, hq, rfl, hlt⟩ := hmeasure id rfl
        obtain ⟨ids, htrail, hnodup, hids⟩ := ih q d' hq (by omega)
        refine ⟨p.id :: ids, .goesOn hturn htrail, List.nodup_cons.2 ⟨fun hmem => ?_, hnodup⟩,
          List.forall_mem_cons.2 ⟨hself _ (.head _), fun id hid => ?_⟩⟩
        · obtain ⟨q', hq', hid, hle⟩ := hids _ hmem
          cases h.inOrder.eq_of_id hq' hp hid
          omega
        · obtain ⟨q', hq', hid, hle⟩ := hids id hid
          exact ⟨q', hq', hid, by omega⟩

/-- Arriving ends, and tries no page twice. -/
theorem exists_arrivalTrail (h : nav.Oriented) (hp : p ∈ nav.pages) (d : Desk) :
    ∃ ids, nav.ArrivalTrail (some p.id) d ids ((nav.arrive (some p.id)).perform d) ∧
      ids.Nodup := by
  have hless : ∀ p ∈ nav.pages, Ensures (fun _ => True) (nav.arrivalTurn p.id) fun t _ =>
      ∀ id, t = .goesOn (some id) →
        ∃ q ∈ nav.pages, q.id = id ∧ nav.pagesBehind q.rank < nav.pagesBehind p.rank := by
    intro p hp
    refine (h.arrivalTurn_later hp).mono (fun _ hs => hs) fun t _ ht id hid => ?_
    obtain ⟨q, hq, hqid, hlt⟩ := ht _ hid id rfl
    exact ⟨q, hq, hqid, pagesBehind_lt hq hlt (Int.le_refl _)⟩
  have hfuel : nav.pagesBehind p.rank < 2 * (nav.pages.length + 1) := by
    have hle : nav.pagesBehind p.rank ≤ nav.pages.length := List.countP_le_length
    omega
  obtain ⟨ids, htrail, hnodup, -⟩ := h.exists_trail (fun p => nav.pagesBehind p.rank)
    arriveWithin_none nav.arriveWithin_succ hless _ p d hp hfuel
  exact ⟨ids, htrail, hnodup⟩

/-- Arriving from behind ends, and tries no page twice. -/
theorem exists_returnTrail (h : nav.Oriented) (hp : p ∈ nav.pages) (d : Desk) :
    ∃ ids, nav.ReturnTrail (some p.id) d ids ((nav.arriveBack (some p.id)).perform d) ∧
      ids.Nodup := by
  have hless : ∀ p ∈ nav.pages, Ensures (fun _ => True) (nav.returnTurn p.id) fun t _ =>
      ∀ id, t = .goesOn (some id) →
        ∃ q ∈ nav.pages, q.id = id ∧ nav.pagesBefore q.rank < nav.pagesBefore p.rank := by
    intro p hp
    refine (h.returnTurn_earlier hp).mono (fun _ hs => hs) fun t _ ht id hid => ?_
    obtain ⟨q, hq, hqid, hlt⟩ := ht _ hid id rfl
    exact ⟨q, hq, hqid, pagesBefore_lt hq hlt (Int.le_refl _)⟩
  have hfuel : nav.pagesBefore p.rank < nav.pages.length + 1 := by
    have hle : nav.pagesBefore p.rank ≤ nav.pages.length := List.countP_le_length
    omega
  obtain ⟨ids, htrail, hnodup, -⟩ := h.exists_trail (fun p => nav.pagesBefore p.rank)
    arriveBackWithin_none nav.arriveBackWithin_succ hless _ p d hp hfuel
  exact ⟨ids, htrail, hnodup⟩

end Oriented

/-- Navigation of a survey that is not refused does not hang. Whatever the session, and whichever
page the search starts on, arriving at a page and arriving from behind are searches that end with
what the navigator answers, and neither is on a page twice. Ids must tell the pages apart. -/
theorem searches_end {survey : Survey} {report : Report} (htyped : survey.Typed)
    (hvalid : survey.validate = .ok report) (hids : (survey.pages.map Page.id).Nodup)
    (skipHidden quiet : Bool) (hp : p ∈ survey.pages) (d : Desk) :
    let nav := ofSurvey survey skipHidden quiet
    (∃ ids : List Id, ids.Nodup ∧ ∀ ids' r, nav.ArrivalTrail (some p.id) d ids' r ↔
      ids' = ids ∧ r = (nav.arrive (some p.id)).perform d) ∧
    ∃ ids : List Id, ids.Nodup ∧ ∀ ids' r, nav.ReturnTrail (some p.id) d ids' r ↔
      ids' = ids ∧ r = (nav.arriveBack (some p.id)).perform d := by
  intro nav
  have h : nav.Oriented := .ofSurvey htyped hids (Survey.nodup_pageIndexes hvalid) skipHidden quiet
  have hmem : p ∈ nav.pages := (sortedBy_perm Page.index survey.pages).mem_iff.2 hp
  obtain ⟨ids, htrail, hnodup⟩ := h.exists_arrivalTrail hmem d
  obtain ⟨ids', htrail', hnodup'⟩ := h.exists_returnTrail hmem d
  refine ⟨⟨ids, hnodup, fun _ _ => ⟨htrail.unique, ?_⟩⟩,
    ids', hnodup', fun _ _ => ⟨htrail'.unique, ?_⟩⟩
  · rintro ⟨rfl, rfl⟩
    exact htrail
  · rintro ⟨rfl, rfl⟩
    exact htrail'

end Navigator

/-! ## Searches in the brand tracker -/

namespace Sample.BrandTracker

theorem findings_warn : ∀ f ∈ Audit.findings (survey (.int 2)), f.error? = none := by
  have hbrands : Audit.pagesOf (survey (.int 2)) brands =
      [.text "p_brand_rate", .text "p_brand_buy"] := by
    simp only [Audit.pagesOf, Survey.pagesBetween, pagesInOrder]
    decide +kernel
  have hstores : Audit.pagesOf (survey (.int 2)) (stores (.int 2)) =
      [.text "p_store_visit", .text "p_store_rate"] := by
    simp only [Audit.pagesOf, Survey.pagesBetween, pagesInOrder]
    decide +kernel
  have hbatteries : (survey (.int 2)).batteries = [brands, stores (.int 2)] := rfl
  simp only [Audit.findings, hbatteries, Audit.batteryFindings, hbrands, hstores]
  decide +kernel

end Sample.BrandTracker

open Sample BrandTracker in
/-- Arriving at the ratings without a brand to rate, and arriving at them from behind. -/
theorem Navigator.searches_end_brandTracker :
    let nav := ofSurvey (BrandTracker.survey (.int 2)) true false
    ∀ d : Desk,
      (∃ ids : List Id, ids.Nodup ∧ ∀ ids' r, nav.ArrivalTrail (some (.text "p_brand_rate")) d ids' r ↔
        ids' = ids ∧ r = (nav.arrive (some (.text "p_brand_rate"))).perform d) ∧
      ∃ ids : List Id, ids.Nodup ∧ ∀ ids' r, nav.ReturnTrail (some (.text "p_brand_rate")) d ids' r ↔
        ids' = ids ∧ r = (nav.arriveBack (some (.text "p_brand_rate"))).perform d := by
  intro nav d
  have hvalid : (BrandTracker.survey (.int 2)).validate =
      .ok (BrandTracker.survey (.int 2)).audit := by
    exact Survey.validate_eq_ok_iff.2 ⟨findings_warn, rfl⟩
  have hpage : plainPage "p_brand_rate" 1
      (loopToken "label" ++ " (" ++ loopToken "index" ++ " of " ++ loopToken "total" ++ ")") ∈
        (BrandTracker.survey (.int 2)).pages := by
    decide
  exact searches_end typed hvalid distinct.pageIds true false hpage d

/-! ## A survey in which a page comes twice -/

namespace Sample.Roundabout

/-- A battery with one row. -/
def battery : Battery where
  id := .text "b"
  name := .text "Rows"
  startPageId := .text "S"
  endPageId := .text "E"
  source := .dataset
  sourceQuestionId := .null
  maxItems := .null
  randomize := .bool false
  sampleWithoutReplacement := .bool true
  rows := [⟨.text "x", ∅, .bool true, .int 0⟩]

/-- The start page of the battery comes again behind its end page. -/
def pages : List Page :=
  [BrandTracker.plainPage "S" 0 "Row", BrandTracker.plainPage "E" 1 "Rating",
    BrandTracker.plainPage "S" 2 "Row"]

/-- The survey. -/
def survey : Survey where
  id := .text "s"
  name := .text "Roundabout"
  pages := pages
  groups := []
  questions := []
  jumpRules := []
  pageJumpRules := []
  batteries := [battery]
  metadata := .ofEntries []

/-- A session whose plan has the given items, and its cursor at the first one. -/
def planned (items : List LoopItem) : Session :=
  (Session.new (.text "s1") (.text "s") ∅).setPlan (.text "b") ⟨.text "b", items, .int 0⟩

/-- The item of a row that was taken out since. -/
def removed : LoopItem := ⟨.text "y", .text "y", ∅⟩

/-- The navigator of the survey, with its pages in order and its battery accepted. -/
def navigator : Navigator where
  survey := survey
  pages := pages
  roles := ⟨[⟨battery, [.text "S", .text "E"]⟩]⟩
  skipHidden := true
  quiet := true

theorem pagesInOrder : survey.pagesInOrder = pages := by
  refine sortedBy_of_pairwise (by decide) ?_
  simp [pages, survey, BrandTracker.plainPage, Value.place_int_le_iff]

theorem ofSurvey_survey : Navigator.ofSurvey survey true true = navigator := by
  have hpages : survey.batteryPages? battery = some [.text "S", .text "E"] := by
    simp only [Survey.batteryPages?, Survey.pagesBetween, pagesInOrder]
    decide +kernel
  have hbatteries : survey.batteries = [battery] := rfl
  rw [Navigator.ofSurvey, pagesInOrder]
  simp only [RoleTable.ofSurvey, hbatteries, RoleTable.addAll, RoleTable.add, RoleTable.verdict,
    hpages]
  rfl

theorem findings_warn : ∀ f ∈ Audit.findings survey, f.error? = none := by
  have hpages : Audit.pagesOf survey battery = [.text "S", .text "E"] := by
    simp only [Audit.pagesOf, Survey.pagesBetween, pagesInOrder]
    decide +kernel
  have hbatteries : survey.batteries = [battery] := rfl
  simp only [Audit.findings, hbatteries, Audit.batteryFindings, hpages]
  decide +kernel

end Sample.Roundabout

open Sample Roundabout in
/-- An audit tells pages apart by their indexes only. With two pages of one id a battery without
anything to show leads back to its own start page: a search meets that page twice, or for ever. -/
theorem Navigator.search_returns :
    let nav := ofSurvey Roundabout.survey true true
    (∃ report, Roundabout.survey.validate = .ok report) ∧
      (∃ r, nav.ArrivalTrail (some (.text "S")) ⟨planned [removed], .ofScript [], []⟩
        [.text "S", .text "S"] r) ∧
      ∀ ids r, ¬nav.ArrivalTrail (some (.text "S")) ⟨planned [], .ofScript [], []⟩ ids r := by
  intro nav
  have hnav : nav = navigator := ofSurvey_survey
  clear_value nav
  subst hnav
  refine ⟨⟨_, Survey.validate_eq_ok_iff.2 ⟨findings_warn, rfl⟩⟩, ?_, ?_⟩
  · have hfirst : ((navigator.arrivalTurn (.text "S")).perform
        ⟨planned [removed], .ofScript [], []⟩).1 = .ok (.goesOn (some (.text "S"))) := by
      decide +kernel
    have hsecond : ((navigator.arrivalTurn (.text "S")).perform ((navigator.arrivalTurn
        (.text "S")).perform ⟨planned [removed], .ofScript [], []⟩).2).1 =
          .ok (.lands (.on (.text "S") (some ⟨.text "b", removed, .int 0, .int 1⟩))) := by
      decide +kernel
    exact ⟨_, .goesOn (Prod.ext hfirst rfl) (.lands (Prod.ext hsecond rfl))⟩
  · intro ids r htrail
    have hturn : Flow.Yields (· = planned []) (navigator.arrivalTurn (.text "S")) fun t s =>
        t = .goesOn (some (.text "S")) ∧ s = planned [] := by
      rintro ⟨_, g, events⟩ rfl
      exact ⟨_, ⟨planned [], g, _⟩, rfl, rfl, rfl⟩
    exact htrail.ne_of_recurs hturn rfl rfl

end Questionnaire
