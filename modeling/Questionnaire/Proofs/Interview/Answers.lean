import Questionnaire.Proofs.Interview.Consistency
import Questionnaire.Sample.BrandTracker

/-!
# Answers tell the position

The answer to a request to leave a page is put together on the way, while the position is read off
the stored session afterwards. The two are the same (`Interview.answer_is_position`): what the work
on the loaded session says is where it leaves that session, and this is the session that is stored.
-/

namespace Questionnaire

open Flow

namespace Interview

variable {iv : Interview} {σ₀ σ : Store} {ids : List Id} {id : Id} {l : Landing}

/-- A request whose work says where it leaves the session is answered by the position of the stored
session. -/
theorem Asks.answered {work : Flow (Decision Landing)} (hasks : iv.Asks id work)
    (htaken : iv.IsTaken σ id work) (hσ : Everywhere Session.Counted σ)
    (htold : ∀ u, σ.find? id = some u → Ensures (· = u) work fun a s =>
      a.reply = l → (a.commit = false → s = u) ∧ iv.whereabouts s = .ok l)
    (hreply : (iv.transact σ id work undisturbed).reply = .ok l) (g : Generator) :
    ((iv.drawing g).currentPosition (iv.transact σ id work undisturbed).store id).reply =
      .ok l := by
  obtain ⟨s, a, d, hs, hperform, ha, hcommits, hsame⟩ := transact_ok hreply
  obtain ⟨hunchanged, hwhere⟩ := htold s hs _ a d rfl hperform ha
  cases hcommit : a.commit with
  | false =>
    rw [hsame hcommit, currentPosition_reply hs, ← hunchanged hcommit]
    exact hwhere
  | true =>
    obtain ⟨s', a', d', n, hs', hperform', -, hplace, hafter⟩ :=
      hasks.stores_of_commits htaken hσ (hcommits.trans hcommit)
    cases hs.symm.trans hs'
    cases hperform.symm.trans hperform'
    have hfind : (iv.transact σ id work undisturbed).store.find? id =
        some (d.session.atVersion (n + 1)) := by
      rw [hafter.2, Store.samePlace_comm, Session.atVersion_id, hplace, if_pos rfl]
    rw [currentPosition_reply hfind]
    exact hwhere

/-- The answer to a request to leave a page is the stored position. -/
theorem answer_is_position (htyped : iv.survey.Typed) (hdistinct : iv.survey.Distinct)
    (hempty : ∀ id, σ₀.find? id = none) (hrun : iv.Run σ₀ ids σ) (id : Id) (g : Generator)
    (fromPage : Option Id) :
    (∀ l, (iv.drawing g).IsTaken σ id ((iv.drawing g).forward id fromPage) →
      ((iv.drawing g).nextPage σ id fromPage).reply = .ok l →
      ∀ g', ((iv.drawing g').currentPosition
        ((iv.drawing g).nextPage σ id fromPage).store id).reply = .ok l) ∧
    (∀ l, (iv.drawing g).IsTaken σ id ((iv.drawing g).backward fromPage) →
      ((iv.drawing g).previousPage σ id fromPage).reply = .ok l → l.pageId ≠ none →
      ∀ g', ((iv.drawing g').currentPosition
        ((iv.drawing g).previousPage σ id fromPage).store id).reply = .ok l) := by
  have h : iv.navigator.Oriented :=
    .ofSurvey htyped hdistinct.pageIds hdistinct.pageIndexes _ _
  have horderly := hrun.orderly h hempty
  have hcounted := hrun.counted (.of_empty hempty)
  constructor
  · intro l htaken hreply g'
    refine @Asks.answered (iv.drawing g) _ _ _ _ (.offered (.forward fromPage)) htaken hcounted
      (fun u hu => ?_) hreply g'
    refine (@forward_told (iv.drawing g) _ h (horderly id u hu).property id fromPage).mono
      (fun _ hs => hs) ?_
    rintro a s hs rfl
    exact ⟨hs.1.2, hs.2⟩
  · intro l htaken hreply hpage g'
    refine @Asks.answered (iv.drawing g) _ _ _ _ (.offered (.backward fromPage)) htaken hcounted
      (fun u hu => ?_) hreply g'
    refine (@backward_told (iv.drawing g) _ h (horderly id u hu).property fromPage).mono
      (fun _ hs => hs) ?_
    rintro a s hs rfl
    exact hs.2 hpage

end Interview

/-! ## A respondent who knows two brands -/

namespace Sample.TwoBrands

open BrandTracker

/-- The screener and the pages about a brand. -/
def pages : List Page :=
  [plainPage "p_screen" 0 "About you", plainPage "p_brand_rate" 1 "Rating",
    plainPage "p_brand_buy" 2 "Buying"]

/-- The question which brands the respondent has heard of. -/
def question : Question :=
  { plainQuestion "q_aware" "p_screen" "AWARE" .multipleChoice
      "Which of these brands have you heard of?" with
    choices := choices "aware" [("nike", "Nike"), ("adidas", "Adidas")] }

/-- The brand tracker cut down to the pages about the brands. -/
def survey : Survey :=
  { BrandTracker.survey .null with
    pages := pages, questions := [question], jumpRules := [], batteries := [brands] }

/-- The interview. -/
def interview : Interview := ⟨survey, Settings.default, .ofScript [0]⟩

/-- The id of the session. -/
def demo : Id := .text "demo"

/-- The page of the screener. -/
def screenPage : Id := .text "p_screen"

/-- The page on which a brand is rated. -/
def ratePage : Id := .text "p_brand_rate"

/-- The page about buying a brand, the last one. -/
def buyPage : Id := .text "p_brand_buy"

theorem typed : survey.Typed where
  pageId := by decide
  pageIndex p hp := by
    simp only [survey, pages, List.mem_cons, List.not_mem_nil, or_false] at hp
    rcases hp with rfl | rfl | rfl <;> exact ⟨_, rfl⟩
  questionId := by decide
  choiceValue := by decide
  batteryId := by decide
  maxItems b hb := by
    cases List.mem_singleton.1 hb
    exact .inl rfl
  rowKey := by decide
  rowIndex b hb r hr := by
    cases List.mem_singleton.1 hb
    cases hr

theorem distinct : survey.Distinct := ⟨by decide, by decide, by decide⟩

theorem pagesInOrder : survey.pagesInOrder = pages := by
  refine sortedBy_of_pairwise (by decide) ?_
  simp [pages, survey, plainPage, Value.place_int_le_iff]

theorem page?_startPage : survey.page? brands.startPageId = some pages[1] := by decide

theorem page?_endPage : survey.page? brands.endPageId = some pages[2] := by decide

theorem batteryPages : survey.batteryPages? brands = some [ratePage, buyPage] := by
  have hbefore : (pages[1]).isBefore (pages[2]) = true := by
    simp [Page.isBefore, pages, plainPage, Value.atMost_int]
  have hbetween : survey.pagesBetween (pages[1]) (pages[2]) = [pages[1], pages[2]] := by
    rw [Survey.pagesBetween, pagesInOrder]
    simp [pages, plainPage, Value.atMost_int]
  simp only [Survey.batteryPages?, page?_startPage, page?_endPage, hbefore, if_true, hbetween]
  rfl

theorem verdict : (⟨[]⟩ : RoleTable).verdict survey brands = .accepted [ratePage, buyPage] := by
  simp only [RoleTable.verdict, batteryPages]
  rfl

/-- The navigator of the survey. -/
def navigator : Navigator := ⟨survey, pages, ⟨[⟨brands, [ratePage, buyPage]⟩]⟩, true, false⟩

theorem navigator_eq : interview.navigator = navigator := by
  have hsurvey : interview.survey = survey := rfl
  have hbatteries : survey.batteries = [brands] := rfl
  rw [Interview.navigator, Navigator.ofSurvey, hsurvey, pagesInOrder]
  simp only [RoleTable.ofSurvey, hbatteries, RoleTable.addAll, RoleTable.add, verdict,
    List.nil_append]
  rfl

theorem announce (d : Desk) : navigator.announce.perform d = (.ok (), d) := by
  have hdemand : (⟨[]⟩ : RoleTable).demandVerdict survey brands = .ok () := by
    simp only [RoleTable.demandVerdict, page?_startPage, page?_endPage, batteryPages, verdict]
    rfl
  have hbatteries : survey.batteries = [brands] := rfl
  have hcomparable :
      (Flow.demandComparable (survey.pages.map Page.index)).perform d = (.ok (), d) :=
    rfl
  have hkeys : (Flow.demandKeys (survey.pages.map Page.id)).perform d = (.ok (), d) := rfl
  simp only [navigator, Navigator.announce, RoleTable.announce, RoleTable.announceAll, hbatteries,
    perform_bind, hcomparable, hkeys, hdemand, perform_ofResult, RoleTable.eventsOf, verdict,
    perform_logAll, List.append_nil, perform_pure]

/-- The plan over the two brands. -/
def plan (cursor : Int) : LoopPlan :=
  ⟨brands.id, question.choices.map Planning.choiceItem, .int cursor⟩

/-- The new session on the screener. -/
def screened : Session :=
  (Session.new demo survey.id ∅).moveTo (some screenPage)

/-- The session of a respondent who has heard of both brands. -/
def aware : Session := screened.respond question.id (.list [.text "nike", .text "adidas"])

/-- The session on a page about the brand at a cursor, after a number of writes. -/
def onBrand (cursor : Int) (history : List Id) (page : Id) (writes : Nat) : Session :=
  { aware with
    plans := aware.plans.set brands.id (plan cursor)
    currentPage := some page
    history := aware.history ++ history ++ [page]
    version := .int writes }

theorem find?_screened :
    (interview.start .emptyMemory demo ∅).store.find? demo = some screened := by
  simp only [Interview.start, Interview.perform, Interview.begin, perform_bind, navigator_eq,
    announce]
  decide +kernel

/-- The answer that names both brands. -/
def bothBrands : Value := .list [.text "nike", .text "adidas"]

theorem perform_record :
    (interview.perform (interview.record demo question.id bothBrands) screened).1 =
      .ok ⟨none, true⟩ ∧
    (interview.perform (interview.record demo question.id bothBrands) screened).2.session =
      aware := by
  have hkeys (d : Desk) : (Flow.demandKeys [question.id]).perform d = (.ok (), d) := rfl
  have hchanged : answerChanged (screened.response question.id) bothBrands = true := by decide
  simp only [Interview.perform, Interview.record, perform_bind, hkeys, perform_session, hchanged,
    if_true, navigator_eq, announce]
  decide +kernel

/-- Where a page is shown for the brand at a cursor. -/
def landing (cursor : Int) (page : Id) : Landing := .on page (plan cursor).iteration.toOption.join

/-- Where leaving a page forward leads, once the survey was found to be one to navigate. -/
def leaving (nav : Navigator) (page : Id) : Flow Landing := do
  if ← nav.continuesLoop page then nav.nextPage page
  else
    match ← interview.jumpOnLeaving page with
    | none => nav.nextPage page
    | some outcome =>
      let _ ← nav.closeIteration page
      interview.follow demo outcome

/-- Leaves a page backward, once the survey was found to be one to navigate. -/
def returning (nav : Navigator) (page : Id) : Flow (Decision Landing) := do
  let landing ← nav.previousPage page
  match landing.pageId with
  | none => pure ⟨landing, false⟩
  | some p =>
    Flow.update fun s => s.moveTo (some p)
    pure ⟨landing, true⟩

theorem leave_eq (page : Id) : interview.leave demo page =
    (do navigator.announce; leaving navigator page) := by
  rw [← navigator_eq]
  rfl

theorem retreat_eq (page : Id) : interview.retreat page =
    (do navigator.announce; returning navigator page) := by
  rw [← navigator_eq]
  rfl

section Leaving
variable {s : Session} {page : Id} (hcur : s.currentPage = some page)
  (hopen : s.isCompleted = false) (hsame : page.equal page = true)
include hcur hopen hsame

/-- A request to leave the current page forward, in terms of the navigator at hand. -/
theorem perform_forward : interview.perform (interview.forward demo (some page)) s =
    (do
      let landing ← leaving navigator page
      Interview.settle landing
      pure (⟨landing, true⟩ : Decision Landing)).perform ⟨s, interview.generatorFor s, []⟩ := by
  have hdup := Interview.isDuplicate_current hcur hsame
  rw [Interview.perform, Interview.forward_eq, Interview.perform_onCurrentPage hcur hopen hdup]
  simp only [Interview.advance, leave_eq, perform_bind, announce]

/-- A request to leave the current page backward, in terms of the navigator at hand. -/
theorem perform_backward : interview.perform (interview.backward (some page)) s =
    (returning navigator page).perform ⟨s, interview.generatorFor s, []⟩ := by
  have hdup := Interview.isDuplicate_current hcur hsame
  rw [Interview.perform, Interview.backward_eq, Interview.perform_onCurrentPage hcur hopen hdup]
  simp only [retreat_eq, perform_bind, announce]

end Leaving

theorem leave_screen :
    let work := interview.perform (interview.forward demo (some screenPage)) (aware.atVersion 1)
    work.1 = .ok ⟨landing 0 ratePage, true⟩ ∧ work.2.session = onBrand 0 [] ratePage 1 := by
  rw [perform_forward rfl rfl rfl]
  decide +kernel

theorem leave_rate :
    let work := interview.perform (interview.forward demo (some ratePage)) (onBrand 0 [] ratePage 2)
    work.1 = .ok ⟨landing 0 buyPage, true⟩ ∧
      work.2.session = onBrand 0 [ratePage] buyPage 2 := by
  rw [perform_forward rfl rfl rfl]
  decide +kernel

theorem leave_buy :
    let work := interview.perform (interview.forward demo (some buyPage))
      (onBrand 0 [ratePage] buyPage 3)
    work.1 = .ok ⟨landing 1 ratePage, true⟩ ∧
      work.2.session = onBrand 1 [ratePage, buyPage] ratePage 3 := by
  rw [perform_forward rfl rfl rfl]
  decide +kernel

theorem return_to_buy :
    let work := interview.perform (interview.backward (some ratePage))
      (onBrand 1 [ratePage, buyPage] ratePage 4)
    work.1 = .ok ⟨landing 0 buyPage, true⟩ ∧
      work.2.session = onBrand 0 [ratePage, buyPage, ratePage] buyPage 4 := by
  rw [perform_backward rfl rfl rfl]
  decide +kernel

/-! ### The stores -/

/-- The store once the respondent has named both brands. -/
def answered : Store :=
  (interview.submitAnswer (interview.start .emptyMemory demo ∅).store demo question.id
    bothBrands).store

/-- The store once the respondent is to rate the first brand. -/
def rating : Store := (interview.nextPage answered demo (some screenPage)).store

/-- The store once the respondent has rated the first brand. -/
def buying : Store := (interview.nextPage rating demo (some ratePage)).store

/-- The store once the respondent is to rate the second brand. -/
def again : Store := (interview.nextPage buying demo (some buyPage)).store

theorem run_answered : interview.Run .emptyMemory [demo] answered ∧
    answered.find? demo = some (aware.atVersion 1) := by
  have hstart : interview.Run .emptyMemory [] (interview.start .emptyMemory demo ∅).store :=
    Interview.Run.nil.start interview.unseeded demo ∅ fun _ _ _ =>
      Store.takes_of_memory (.refl _) _
  have hquestion : interview.survey.question? question.id = some question := rfl
  exact (Interview.Run.next ⟨hstart, find?_screened⟩ rfl (.record hquestion) perform_record rfl).1

/-- Leaving a page goes on with a run. -/
theorem run_nextPage {σ : Store} {ids : List Id} {s t : Session} {n : Nat} {page : Id} {l : Landing}
    (h : interview.Run .emptyMemory ids σ ∧ σ.find? demo = some s) (hn : s.version = .int n)
    (hwork : let work := interview.perform (interview.forward demo (some page)) s
      work.1 = .ok ⟨l, true⟩ ∧ work.2.session = t) :
    let served := interview.nextPage σ demo (some page)
    (interview.Run .emptyMemory (ids ++ [demo]) served.store ∧
      served.store.find? demo = some (t.atVersion (n + 1))) ∧ served.reply = .ok l :=
  Interview.Run.next h hn (.offered (.forward (some page))) hwork rfl

theorem run_rating : interview.Run .emptyMemory [demo, demo] rating ∧
    rating.find? demo = some (onBrand 0 [] ratePage 2) :=
  (run_nextPage run_answered rfl leave_screen).1

theorem run_buying : interview.Run .emptyMemory [demo, demo, demo] buying ∧
    buying.find? demo = some (onBrand 0 [ratePage] buyPage 3) :=
  (run_nextPage run_rating rfl leave_rate).1

theorem run_again : interview.Run .emptyMemory [demo, demo, demo, demo] again ∧
    again.find? demo = some (onBrand 1 [ratePage, buyPage] ratePage 4) :=
  (run_nextPage run_buying rfl leave_buy).1

end Sample.TwoBrands

open Sample.TwoBrands in
/-- The respondent who leaves the pages about the first brand is told the position, on the page
about the second one, and so is the one who goes back. -/
theorem Interview.answer_is_position_twoBrands :
    ((interview.nextPage buying demo (some buyPage)).reply = .ok (landing 1 ratePage) ∧
      ∀ g, ((interview.drawing g).currentPosition
        (interview.nextPage buying demo (some buyPage)).store demo).reply =
          .ok (landing 1 ratePage)) ∧
    (interview.previousPage again demo (some ratePage)).reply = .ok (landing 0 buyPage) ∧
      ∀ g, ((interview.drawing g).currentPosition
        (interview.previousPage again demo (some ratePage)).store demo).reply =
          .ok (landing 0 buyPage) := by
  have hforward : (interview.nextPage buying demo (some buyPage)).reply =
      .ok (landing 1 ratePage) := (run_nextPage run_buying rfl leave_buy).2
  have hbackward : (interview.previousPage again demo (some ratePage)).reply =
      .ok (landing 0 buyPage) :=
    (Interview.Run.next run_again rfl (.offered (.backward (some ratePage))) return_to_buy rfl).2
  have hbuying := run_buying.1
  have hagain := run_again.1
  have hsame : interview.drawing interview.unseeded = interview := rfl
  have hpage : (landing 0 buyPage).pageId ≠ none := by decide
  generalize buying = σ at hbuying hforward ⊢
  generalize again = τ at hagain hbackward ⊢
  have hnext := answer_is_position typed distinct Store.find?_emptyMemory hbuying demo
    interview.unseeded (some buyPage)
  have hprevious := answer_is_position typed distinct Store.find?_emptyMemory hagain demo
    interview.unseeded (some ratePage)
  rw [hsame] at hnext hprevious
  exact ⟨⟨hforward, hnext.1 _ hbuying.isTaken hforward⟩, hbackward,
    hprevious.2 _ hagain.isTaken hbackward hpage⟩

end Questionnaire
