import Questionnaire.Proofs.Interview.Answers

/-!
# Requests that are delivered again

A request to leave a page names the page, so that it does nothing if it is delivered once more after
the session has moved on. The name tells pages apart, and not the iterations in which a battery
shows a page. While the session is elsewhere, the request is answered by the position, which can be
told of every stored session (`Run.exists_whereabouts`), and nothing is stored. Once the session is
on that page again, the request is as good as a new one, also if it was made for another item
(`redelivered`).
-/

namespace Questionnaire

open Flow

namespace Interview

variable {iv : Interview} {σ₀ σ τ : Store} {ids later : List Id} {s : Session} {id page : Id}
  {l : Landing}

/-! ## The position can be told -/

/-- A session whose position can be told: its plans have their cursors among their items, and if it
is on a page, the survey can be navigated and something can be kept under the id of the page. -/
def Locatable (iv : Interview) (s : Session) : Prop :=
  (∀ q, s.currentPage = some q → q.isCompound = false ∧ iv.navigator.announced = .ok ()) ∧ s.Counted

theorem locatableLaw (iv : Interview) : CursorLaw iv.survey (fun _ => True) iv.Locatable :=
  (cursorLaw iv.survey).toCursorLaw.beside fun _ _ _ h => h

theorem Locatable.exists_whereabouts (h : iv.Locatable s)
    (hkeys : ∀ b ∈ iv.survey.batteries, b.id.isCompound = false) :
    ∃ l, iv.whereabouts s = .ok l := by
  cases hcur : s.currentPage with
  | none => exact ⟨endedPosition s, by simp [whereabouts, hcur]⟩
  | some q =>
    rw [whereabouts_eq (h.1 q hcur).2]
    exact exists_positionIn hkeys h.2 fun q hq => (h.1 q hq).1

/-- Where a session is put, its position can be told. -/
theorem settle_locatable (hann : iv.navigator.announced = .ok ()) (hl : l.Keyed) :
    Ensures Session.Counted (settle l) fun _ => iv.Locatable := by
  have hcounted : Keeps Session.Counted (settle l) := keeps_settle (cursorLaw iv.survey).same l
  refine (hcounted.and ((settle_keyed hl).mono (fun _ _ => trivial) fun _ _ hs => hs)).mono
    (fun _ hs => hs) fun _ _ hs => ⟨fun q hq => ⟨hs.2 q hq, hann⟩, hs.1⟩

theorem begin_locatable (id : Id) (embedded : Register Value) :
    Ensures (· = .new id iv.survey.id embedded) iv.begin fun _ => iv.Locatable := by
  refine .mono (P := Session.Counted) ?_ (fun _ hs => hs ▸ counted_new _ _ _) fun _ _ hs => hs
  refine .bind Navigator.announce_ensures fun _ => .given (fun _ hs => hs.2) fun hann => ?_
  have hfirst : Ensures Session.Counted iv.navigator.firstPage fun l s => s.Counted ∧ l.Keyed :=
    (Navigator.preserves_firstPage (cursorLaw iv.survey).arrival proper_navigator).keeps.and
      (Navigator.firstPage_keyed.mono (fun _ _ => trivial) fun _ _ hl => hl)
  refine .bind (hfirst.mono (fun _ hs => hs.1) fun _ _ hs => hs) fun l =>
    .given (fun _ hs => hs.2) fun hl => ?_
  refine .bind ((settle_locatable hann hl).mono (fun _ hs => hs.1) fun _ _ hs => hs) fun _ => ?_
  exact .bind Keeps.session fun _ => Keeps.log

theorem keeps_locatable_forward (id : Id) (fromPage : Option Id) :
    Keeps iv.Locatable (iv.forward id fromPage) := by
  rw [forward_eq]
  refine onCurrentPage_ensures keeps_locate (fun page => ?_) fromPage
  have hleave : Ensures Session.Counted (iv.leave id page) fun l s =>
      s.Counted ∧ l.Keyed ∧ iv.navigator.announced = .ok () :=
    Ensures.and (keeps_leave (cursorLaw iv.survey) id page) <|
      ((leave_keyed id page).and (leave_announced id page)).mono (fun _ _ => trivial)
        fun _ _ hl => hl
  refine .bind (hleave.mono (fun _ hs => hs.1.2) fun _ _ hs => hs) fun l =>
    .given (fun _ hs => hs.2) fun ⟨hl, hann⟩ => ?_
  exact .bind ((settle_locatable hann hl).mono (fun _ hs => hs.1) fun _ _ hs => hs)
    fun _ => Keeps.pure

theorem keeps_locatable_backward (fromPage : Option Id) :
    Keeps iv.Locatable (iv.backward fromPage) := by
  rw [backward_eq]
  refine onCurrentPage_ensures keeps_locate (fun page => ?_) fromPage
  refine .bind Navigator.announce_ensures fun _ => .given (fun _ hs => hs.2) fun hann => ?_
  have hback : Ensures iv.Locatable (iv.navigator.previousPage page) fun l s =>
      iv.Locatable s ∧ l.Keyed :=
    Ensures.and (Navigator.preserves_previousPage iv.locatableLaw proper_navigator
      fun _ _ => trivial).keeps <|
      (Navigator.previousPage_keyed proper_navigator (Navigator.isCompound_of_announced hann)
        page).mono (fun _ _ => trivial) fun _ _ hl => hl
  refine .bind (hback.mono (fun _ hs => hs.1.1) fun _ _ hs => hs) fun l =>
    .given (fun _ hs => hs.2) fun hl => ?_
  split
  · exact .pure fun _ hs => hs.1
  · next p hp =>
    refine .bind (.update (Q := fun _ => iv.Locatable) fun s hs => ⟨fun q hq => ?_, hs.1.2⟩)
      fun _ => Keeps.pure
    exact ⟨hl q (hp.trans hq), hann⟩

/-- The work of every request keeps that the position can be told. -/
theorem Asks.keeps_locatable {α : Type} {work : Flow (Decision α)} (hasks : iv.Asks id work) :
    Keeps iv.Locatable work := by
  have hrecord : ∀ questionId answer, Keeps iv.Locatable (iv.record id questionId answer) := by
    intro questionId answer
    refine keeps_record_of (keeps_recorded_of (fun _ => True) ?_ (fun o _ _ => ?_)
      (fun _ hs => hs) id) (fun _ _ _ hs => hs) (fun _ _ hs => ⟨hs.1, hs.2.dropPlan⟩) answer
    · exact (Jump.keeps_ofAnswer questionId).mono (fun _ hs => hs)
        fun _ _ hs => ⟨hs, fun _ _ => trivial⟩
    · exact .bind .session fun _ => .bind .log fun _ => .update fun _ hs => hs
  cases hasks with
  | record => exact hrecord _ _
  | offered hoffer =>
    cases hoffer with
    | locate => exact keeps_locate
    | forward fromPage => exact keeps_locatable_forward id fromPage
    | backward fromPage => exact keeps_locatable_backward fromPage
    | record => exact hrecord _ _
    | render page => exact keeps_rendering (fun _ _ hs => hs) id page
    | report batteryId => exact keeps_report batteryId

namespace Run

theorem locatable (h₀ : Everywhere iv.Locatable σ₀) (h : iv.Run σ₀ ids σ) :
    Everywhere iv.Locatable σ :=
  h.everywhere (fun _ _ hs => hs) (fun g => @begin_locatable (iv.drawing g))
    (fun {g _ _ _} hasks => @Asks.keeps_locatable (iv.drawing g) _ _ _ hasks) h₀

/-- The position of every session can be told that a run leads to. -/
theorem exists_whereabouts (hkeys : ∀ b ∈ iv.survey.batteries, b.id.isCompound = false)
    (h₀ : Everywhere iv.Locatable σ₀) (h : iv.Run σ₀ ids σ) (hs : σ.find? id = some s) :
    ∃ l, iv.whereabouts s = .ok l :=
  (h.locatable h₀ id s hs).property.exists_whereabouts hkeys

end Run

/-! ## On the page or elsewhere -/

/-- A session is nowhere, or it is open and on the page that its position tells. -/
theorem whereabouts_cases (h : iv.whereabouts s = .ok l) :
    (l = endedPosition s ∧ (s.isCompleted = true ∨ s.currentPage = none)) ∨
      ∃ q i, l = .on q i ∧ s.isCompleted = false ∧ s.currentPage = some q := by
  unfold whereabouts at h
  cases hopen : s.isCompleted with
  | true =>
    rw [hopen] at h
    exact .inl ⟨(Except.ok.inj h).symm, .inl rfl⟩
  | false =>
    rw [hopen] at h
    cases hcur : s.currentPage with
    | none =>
      rw [hcur] at h
      exact .inl ⟨(Except.ok.inj h).symm, .inr rfl⟩
    | some q =>
      -- The survey was announced and the iteration read, or there would be no position.
      rw [hcur] at h
      dsimp only [Bool.false_eq_true, if_false] at h
      cases hann : iv.navigator.announced with
      | error e =>
        rw [hann] at h
        cases h
      | ok u =>
        cases hi : iv.navigator.iterationIn q s with
        | error e =>
          rw [hann, hi] at h
          cases h
        | ok i =>
          rw [hann, hi] at h
          exact .inr ⟨q, i, (Except.ok.inj h).symm, rfl, rfl⟩

/-- A position on a page tells no more than the page and the iteration. -/
theorem eq_on_of_whereabouts (h : iv.whereabouts s = .ok l) (hpage : l.pageId = some page) :
    l = .on page l.iteration ∧ s.isCompleted = false ∧ s.currentPage = some page := by
  rcases whereabouts_cases h with ⟨rfl, -⟩ | ⟨q, i, rfl, hopen, hcur⟩
  · cases hpage
  · have hq : q = page := by
      have hgiven : q.given? = some page := hpage
      cases q <;> cases hgiven <;> rfl
    exact ⟨by rw [hq]; rfl, hopen, hq ▸ hcur⟩

/-- A request names another page than the one on which the session is, or the session has ended. -/
def IsElsewhere (s : Session) (page : Id) : Prop :=
  isDuplicate s (some page) = true ∨ s.isCompleted = true

/-- A session is elsewhere if its position is not on the page. -/
theorem isElsewhere_of_whereabouts (htext : page.isText = true) (h : iv.whereabouts s = .ok l)
    (hpage : l.pageId ≠ some page) : IsElsewhere s page := by
  rcases whereabouts_cases h with ⟨-, hdone | hnowhere⟩ | ⟨q, i, rfl, -, hcur⟩
  · exact .inr hdone
  · exact .inl (by simp [isDuplicate, hnowhere])
  · refine .inl ?_
    have hne : page.equal q ≠ true := fun hequal => by
      obtain rfl := Value.eq_of_agrees htext (Value.agrees_of_equal hequal)
      exact hpage (Value.given?_of_isText htext)
    simpa [isDuplicate, hcur] using hne

/-- Elsewhere, a request to leave a page is answered by the position. -/
theorem forward_elsewhere {d : Desk} (h : IsElsewhere d.session page) :
    ((iv.forward id (some page)).perform d).1 = (iv.whereabouts d.session).map (⟨·, false⟩) := by
  cases hdup : isDuplicate d.session (some page) with
  | true => exact forward_duplicate hdup
  | false =>
    have hdone : d.session.isCompleted = true := h.resolve_left (by simp [hdup])
    unfold forward
    rw [perform_bind, perform_session]
    simp only [hdup, hdone, Bool.false_eq_true, if_false]
    exact (iv.reads_locate d).1

/-- Elsewhere, a request to leave a page is answered by the position, and nothing is stored. -/
theorem nextPage_elsewhere (hs : σ.find? id = some s) (h : IsElsewhere s page)
    (hl : iv.whereabouts s = .ok l) :
    (iv.nextPage σ id (some page)).store = σ ∧ (iv.nextPage σ id (some page)).reply = .ok l := by
  have hread : (iv.perform (iv.forward id (some page)) s).1 = .ok ⟨l, false⟩ := by
    rw [perform, forward_elsewhere h, hl]
    rfl
  unfold nextPage transact
  rw [Store.load_of_find? hs]
  rcases hperform : iv.perform (iv.forward id (some page)) s with ⟨r, d⟩
  rw [hperform] at hread
  obtain rfl : r = .ok ⟨l, false⟩ := hread
  dsimp only
  rw [hperform]
  exact ⟨rfl, rfl⟩

/-- On the page, a request to leave it is one to leave the current page. -/
theorem nextPage_here (hs : σ.find? id = some s) (h : isDuplicate s (some page) = false) :
    iv.nextPage σ id (some page) = iv.nextPage σ id none := by
  have hwork : iv.perform (iv.forward id (some page)) s = iv.perform (iv.forward id none) s := by
    have hnone : isDuplicate s none = false := rfl
    unfold perform forward
    rw [perform_bind, perform_bind, perform_session]
    simp only [h, hnone, Bool.false_eq_true, if_false]
  unfold nextPage transact
  rw [Store.load_of_find? hs]
  dsimp only
  rw [hwork]

/-! ## Requests that are delivered again -/

/-- A request to leave a page that is delivered again does no harm while the session is not on that
page. In a run of requests, a request to leave the page on which a session is was answered. However
the run goes on, the position can be told. If it is not the one for which the request was made, and
is not on the same page in another iteration, then the same request is answered by the position and
changes nothing. If it is on the same page, then the request does what one does that names no
page. -/
theorem redelivered (hkeys : ∀ b ∈ iv.survey.batteries, b.id.isCompound = false)
    (hempty : ∀ id, σ₀.find? id = none) (before : iv.Run σ₀ ids σ) (htext : page.isText = true)
    {here : Landing} (hissued : (iv.currentPosition σ id).reply = .ok here)
    (hpage : here.pageId = some page) (g : Generator)
    (htaken : (iv.drawing g).IsTaken σ id ((iv.drawing g).forward id (some page)))
    (hreply : ((iv.drawing g).nextPage σ id (some page)).reply = .ok l)
    (after : iv.Run ((iv.drawing g).nextPage σ id (some page)).store later τ) :
    ∃ now, (∀ g, ((iv.drawing g).currentPosition τ id).reply = .ok now) ∧
      (now ≠ here → (now.pageId = some page → now.iteration = here.iteration) →
        ∀ g, ((iv.drawing g).nextPage τ id (some page)).store = τ ∧
          ((iv.drawing g).nextPage τ id (some page)).reply = .ok now) ∧
      (now.pageId = some page → ∀ g,
        (iv.drawing g).nextPage τ id (some page) = (iv.drawing g).nextPage τ id none) := by
  obtain ⟨s, -, -, hs, -⟩ := transact_ok hreply
  rw [currentPosition_reply hs] at hissued
  have hasks : (iv.drawing g).Asks id ((iv.drawing g).forward id (some page)) :=
    .offered (.forward (some page))
  have hmoved := before.serve g hasks htaken
  have hcounted := hmoved.counted (.of_empty hempty)
  have hlocatable := hmoved.locatable (.of_empty hempty)
  have hstored : (((iv.drawing g).nextPage σ id (some page)).store.find? id).isSome :=
    Option.isSome_iff_exists.2 <| (Run.nil.serve g hasks htaken).exists_find?
      (before.counted (.of_empty hempty)) (Option.isSome_iff_exists.2 ⟨s, hs⟩)
  -- No request removes a session, so it is still there when the request comes again.
  obtain ⟨t, ht⟩ := after.exists_find? hcounted hstored
  obtain ⟨now, hnow⟩ := after.exists_whereabouts hkeys hlocatable ht
  refine ⟨now, fun g => currentPosition_reply ht |>.trans hnow, fun hne hitem g => ?_,
    fun hon g => ?_⟩
  · -- A position on the same page in the same iteration would be the one of the first delivery.
    have helse : now.pageId ≠ some page := fun hon => hne <| by
      rw [(eq_on_of_whereabouts hnow hon).1, (eq_on_of_whereabouts hissued hpage).1, hitem hon]
    exact @nextPage_elsewhere (iv.drawing g) _ _ _ _ _ ht
      (isElsewhere_of_whereabouts htext hnow helse) hnow
  · obtain ⟨-, -, hcur⟩ := eq_on_of_whereabouts hnow hon
    refine @nextPage_here (iv.drawing g) _ _ _ _ ht ?_
    exact isDuplicate_current hcur ((Value.equal_iff_of_isText htext).2 rfl)

end Interview

/-! ## A page that is shown for one brand after the other -/

namespace Sample.TwoBrands

theorem announced : interview.navigator.announced = .ok () := by
  rw [navigator_eq]
  exact congrArg Prod.fst (announce default)

theorem whereabouts_screen :
    interview.whereabouts (aware.atVersion 1) = .ok (.on screenPage none) := by
  rw [Interview.whereabouts_eq announced, Interview.positionIn, navigator_eq]
  rfl

theorem whereabouts_rate : interview.whereabouts (onBrand 0 [] ratePage 2) =
    .ok (landing 0 ratePage) := by
  rw [Interview.whereabouts_eq announced, Interview.positionIn, navigator_eq]
  rfl

theorem whereabouts_rateAgain : interview.whereabouts (onBrand 1 [ratePage, buyPage] ratePage 4) =
    .ok (landing 1 ratePage) := by
  rw [Interview.whereabouts_eq announced, Interview.positionIn, navigator_eq]
  rfl

theorem leave_rateAgain :
    let work := interview.perform (interview.forward demo (some ratePage))
      (onBrand 1 [ratePage, buyPage] ratePage 4)
    work.1 = .ok ⟨landing 1 buyPage, true⟩ ∧
      work.2.session = onBrand 1 [ratePage, buyPage, ratePage] buyPage 4 := by
  rw [perform_forward rfl rfl rfl]
  decide +kernel

/-- Leaving another page goes on with what is left of a run. -/
theorem exists_run_nextPage {σ τ : Store} {ids : List Id} (hrun : interview.Run .emptyMemory ids τ)
    (hrest : ∃ later, interview.Run σ later τ) (page : Id) :
    ∃ later, interview.Run σ later (interview.nextPage τ demo (some page)).store :=
  hrest.elim fun _ h =>
    ⟨_, h.serve interview.unseeded (.offered (.forward (some page))) hrun.isTaken⟩

theorem exists_run_again : ∃ later, interview.Run buying later again :=
  exists_run_nextPage run_buying.1 ⟨_, .nil⟩ buyPage

theorem exists_run_rating_again : ∃ later, interview.Run rating later again :=
  exists_run_nextPage run_buying.1 (exists_run_nextPage run_rating.1 ⟨_, .nil⟩ ratePage) buyPage

end Sample.TwoBrands

open Sample.TwoBrands in
/-- The request to leave the screener, delivered again while the second brand is rated, is answered
by the position and changes nothing. -/
theorem Interview.redelivered_twoBrands :
    landing 1 ratePage ≠ .on screenPage none ∧
      ∀ g, ((interview.drawing g).nextPage again demo (some screenPage)).store = again ∧
        ((interview.drawing g).nextPage again demo (some screenPage)).reply =
          .ok (landing 1 ratePage) := by
  have hreply : (interview.nextPage answered demo (some screenPage)).reply =
      .ok (landing 0 ratePage) := (run_nextPage run_answered rfl leave_screen).2
  have hissued : (interview.currentPosition answered demo).reply = .ok (.on screenPage none) :=
    (currentPosition_reply run_answered.2).trans whereabouts_screen
  have hposition : (interview.currentPosition again demo).reply = .ok (landing 1 ratePage) :=
    (currentPosition_reply run_again.2).trans whereabouts_rateAgain
  obtain ⟨later, hafter⟩ := exists_run_rating_again
  have hanswered := run_answered.1
  have hrating : rating = (interview.nextPage answered demo (some screenPage)).store := rfl
  rw [hrating] at hafter
  have hne : landing 1 ratePage ≠ .on screenPage none := by decide
  have hkeys : ∀ b ∈ interview.survey.batteries, b.id.isCompound = false := by decide
  have hsame : interview.drawing interview.unseeded = interview := rfl
  generalize answered = σ at hreply hissued hanswered hafter
  generalize again = τ at hposition hafter ⊢
  rw [← hsame] at hreply hafter
  obtain ⟨now, hnow, helse, -⟩ := redelivered hkeys Store.find?_emptyMemory hanswered rfl
    hissued rfl interview.unseeded hanswered.isTaken hreply hafter
  have hnow := hnow interview.unseeded
  rw [hsame, hposition] at hnow
  obtain rfl := Except.ok.inj hnow
  exact ⟨hne, helse hne fun hon => absurd hon (by decide)⟩

open Sample.TwoBrands in
/-- The request to leave the rating of the first brand, delivered again while the second one is
rated, leaves that page too: the position is another one than that for which the request was made,
and still the session moves on. -/
theorem Interview.redelivered_for_another_item :
    (∃ ids, interview.Run .emptyMemory ids rating) ∧
    (interview.currentPosition rating demo).reply = .ok (landing 0 ratePage) ∧
    (interview.nextPage rating demo (some ratePage)).reply = .ok (landing 0 buyPage) ∧
    (∃ later, interview.Run (interview.nextPage rating demo (some ratePage)).store later again) ∧
    (interview.currentPosition again demo).reply = .ok (landing 1 ratePage) ∧
    landing 1 ratePage ≠ landing 0 ratePage ∧
    (interview.nextPage again demo (some ratePage)).reply = .ok (landing 1 buyPage) ∧
    (interview.nextPage again demo (some ratePage)).store.find? demo ≠ again.find? demo := by
  obtain ⟨⟨-, hmoved⟩, hreply⟩ := run_nextPage run_again rfl leave_rateAgain
  refine ⟨⟨_, run_rating.1⟩, (currentPosition_reply run_rating.2).trans whereabouts_rate,
    (run_nextPage run_rating rfl leave_rate).2, exists_run_again,
    (currentPosition_reply run_again.2).trans whereabouts_rateAgain, by decide, hreply, ?_⟩
  rw [hmoved, run_again.2]
  exact fun hsame => absurd (congrArg (Option.bind · Session.currentPage) hsame) (by decide)

end Questionnaire
