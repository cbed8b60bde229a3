import Questionnaire.Proofs.Interview.Position
import Questionnaire.Proofs.Interview.Reachable
import Questionnaire.Proofs.Page.Settling
import Questionnaire.Sample.BrandTracker

/-!
# Pages look the same every time

A page that was rendered for a session is rendered in the same way from then on, and no later
request to render it writes anything (`Interview.views_stable`). This holds over any succession of
requests to render pages of the session (`Interview.Viewing`), each with a generator of its own, and
whatever other requests do in between, as long as they leave what rendering reads as it is.

A page that was rendered is settled: every later state of the session renders it to the same page
and is left as it is (`Interview.Shown`).
-/

namespace Questionnaire

open Flow

/-- A session is as it was when it is stored at another version. -/
theorem Session.grown_atVersion (s : Session) (n : Nat) : s.Grown (s.atVersion n) :=
  ⟨rfl, rfl, rfl, .refl _⟩

namespace Interview

variable {iv : Interview} {σ τ : Store} {id : Id} {s t : Session} {d d' : Desk}

/-! ## The work of rendering -/

/-- The part of a request to render that makes the page. -/
def draft (iv : Interview) (page : Id) : Flow RenderedPage := do
  iv.navigator.announce
  let iteration ← iv.navigator.iterationOf page
  Renderer.page ⟨iv.survey, iteration, iv.settings.weighting, iv.quiet⟩ page

/-- The iteration of a page depends on the plans only. -/
theorem iterationIn_of_grown (h : s.Grown t) (page : Id) :
    iv.navigator.iterationIn page t = iv.navigator.iterationIn page s := by
  simp only [Navigator.iterationIn, Session.plan?, h.plans]

theorem settles_draft (iv : Interview) (page : Id) : (iv.draft page).Settles := by
  obtain ⟨announced, hannounce⟩ := iv.navigator.reads_announce
  refine (Settles.of_reads hannounce fun _ _ _ => rfl).bind fun _ => ?_
  refine (Settles.of_reads (Navigator.reads_iterationOf page) fun s t h => ?_).bind fun _ => ?_
  · exact iterationIn_of_grown h page
  · exact Renderer.settles_page _ page

theorem keeps_draft (i page : Id) : Keeps (fun t => t.id = i) (iv.draft page) :=
  .bind Navigator.keeps_announce fun _ =>
    .bind (Navigator.preserves_iterationOf page).keeps fun _ =>
      Renderer.keeps_page (fun _ _ h => h) _ page

/-- A request to render makes the page that it means, and is stored if orders were drawn. -/
theorem perform_render (id : Id) {page : Option Id} {p : Id}
    (hp : pageToRender? d.session page = some p) :
    (iv.render id page).perform d = match (iv.draft p).perform d with
      | (.ok rendered, d') =>
        (.ok ⟨rendered, decide (d'.session.orders ≠ d.session.orders)⟩, d')
      | (.error e, d') => (.error e, d') := by
  rw [render, perform_bind, perform_session]
  simp only [hp, draft, perform_bind]
  rcases iv.navigator.announce.perform d with ⟨e | _, d₁⟩
  · rfl
  dsimp only
  rcases (iv.navigator.iterationOf p).perform d₁ with ⟨e | i, d₂⟩
  · rfl
  dsimp only
  rcases (Renderer.page ⟨iv.survey, i, iv.settings.weighting, iv.quiet⟩ p).perform d₂ with
    ⟨e | rendered, d₃⟩ <;> rfl

/-- A page is settled in a session: every later state of the session renders it to what is given and
is left as it is. -/
def Shown (iv : Interview) (s : Session) (page : Id) (rendered : RenderedPage) : Prop :=
  ∀ d : Desk, s.Grown d.session →
    ∃ d', (iv.draft page).perform d = (.ok rendered, d') ∧ d'.session = d.session

theorem Shown.grown {page : Id} {rendered : RenderedPage} (h : iv.Shown s page rendered)
    (hgrown : s.Grown t) : iv.Shown t page rendered := fun d hd => h d (hgrown.trans hd)

/-- A page is settled to one page at most. -/
theorem Shown.unique {page : Id} {rendered rendered' : RenderedPage}
    (h : iv.Shown s page rendered) (h' : iv.Shown s page rendered') : rendered = rendered' := by
  obtain ⟨_, hdraft, -⟩ := h ⟨s, default, []⟩ (.refl s)
  obtain ⟨_, hdraft', -⟩ := h' ⟨s, default, []⟩ (.refl s)
  rw [hdraft] at hdraft'
  cases hdraft'
  rfl

/-- What was rendered is settled in the session that rendering left behind. -/
theorem shown_of_draft {page : Id} {rendered : RenderedPage}
    (h : (iv.draft page).perform d = (.ok rendered, d')) :
    d.session.Grown d'.session ∧ iv.Shown d'.session page rendered :=
  settles_draft iv page d rendered d' h

/-! ## Requests -/

/-- Ids lead to sessions in their places. -/
theorem Reachable.placed (h : iv.Reachable σ) : Everywhere (fun _ => True) σ :=
  h.invariant (fun _ _ _ => trivial) (fun _ _ _ _ _ _ _ _ => trivial)
    fun _ _ _ _ _ _ => trivial

/-- A successful request to render leaves a later state of the session, in which the page is
settled. -/
theorem renderPage_ok (hσ : Everywhere (fun _ => True) σ) {page : Option Id} {p : Id}
    {rendered : RenderedPage}
    (hload : σ.load id = .ok s) (hp : pageToRender? s page = some p)
    (htakes : ∀ a d, iv.perform (iv.render id page) s = (.ok a, d) → a.commit = true →
      σ.Takes d.session)
    (hreply : (iv.renderPage σ id page).reply = .ok rendered) :
    ∃ t, (iv.renderPage σ id page).store.load id = .ok t ∧ s.Grown t ∧ iv.Shown t p rendered := by
  unfold renderPage transact at hreply ⊢
  rw [hload] at hreply ⊢
  dsimp only [undisturbed] at hreply ⊢
  rcases hperform : iv.perform (iv.render id page) s with ⟨e | a, d⟩ <;>
    rw [hperform] at hreply
  · cases hreply
  have hdesk := hperform
  rw [Interview.perform, perform_render id hp] at hdesk
  rcases hdraft : (iv.draft p).perform ⟨s, iv.generatorFor s, []⟩ with ⟨e | drafted, d'⟩ <;>
    rw [hdraft] at hdesk <;> cases hdesk
  obtain ⟨hgrown, hshown⟩ := shown_of_draft hdraft
  dsimp only [conclude] at hreply ⊢
  by_cases horders : d.session.orders = s.orders
  · -- Nothing was drawn, so nothing is stored.
    have hcommit : decide (d.session.orders ≠ s.orders) = false := by simpa using horders
    rw [hcommit] at hreply ⊢
    cases hreply
    have hback : d.session.Grown s :=
      ⟨hgrown.responses.symm, hgrown.embedded.symm, hgrown.plans.symm, horders ▸ .refl _⟩
    exact ⟨s, hload, .refl s, hshown.grown hback⟩
  · have hcommit : decide (d.session.orders ≠ s.orders) = true := by simpa using horders
    rw [hcommit, if_pos rfl] at hreply ⊢
    rcases hsave : σ.save d.session with e | ⟨t, after⟩ <;> rw [hsave] at hreply <;> cases hreply
    obtain ⟨hid, -, -⟩ := hσ id s (Store.find?_of_load hload)
    have hkept : d.session.id = s.id := keeps_draft s.id p _ _ _ rfl hdraft
    obtain ⟨n, rfl, hstores⟩ := Store.stores_of_save (htakes _ d hperform hcommit)
      (fun u hu => (hσ _ u hu).version) hsave
    refine ⟨d.session.atVersion n, Store.load_of_find? ?_,
      hgrown.trans (d.session.grown_atVersion n),
      hshown.grown (d.session.grown_atVersion n)⟩
    rw [hstores.2 id, if_pos]
    rw [Store.samePlace_comm, Session.atVersion_id, hkept]
    exact hid

/-- Successful requests to render pages of a session, one after the other, each with a generator of
its own: the store before them, the pages that were rendered, and the store after them. -/
inductive Viewing (iv : Interview) (id : Id) (σ : Store) :
    List (Id × RenderedPage) → Store → Prop
  | opening : Viewing iv id σ [] σ
  /-- A page is rendered; what is to be stored is a session that the store takes. -/
  | render {views : List (Id × RenderedPage)} {τ : Store} {s : Session} {page : Option Id} {p : Id}
      {rendered : RenderedPage} (g : Generator) : Viewing iv id σ views τ →
      τ.load id = .ok s → pageToRender? s page = some p →
      (∀ a d, (iv.drawing g).perform ((iv.drawing g).render id page) s = (.ok a, d) →
        a.commit = true → τ.Takes d.session) →
      ((iv.drawing g).renderPage τ id page).reply = .ok rendered →
      Viewing iv id σ (views ++ [(p, rendered)]) ((iv.drawing g).renderPage τ id page).store
  /-- Other requests are served, which leave what rendering reads as it is. -/
  | meanwhile {views : List (Id × RenderedPage)} {τ τ' : Store} {s t : Session} :
      Viewing iv id σ views τ → τ.load id = .ok s → iv.Reachable τ' → τ'.load id = .ok t →
      s.Grown t → Viewing iv id σ views τ'

namespace Viewing

variable {views : List (Id × RenderedPage)}

theorem reachable (hσ : iv.Reachable σ) (h : iv.Viewing id σ views τ) : iv.Reachable τ := by
  induction h with
  | opening => exact hσ
  | @render views τ s page p rendered g _ hload _ htakes _ ih =>
    refine ih.serve g (.render page) fun t a d ht hperform hcommit => ?_
    cases hload.symm.trans ht
    exact htakes a d hperform hcommit
  | meanwhile _ _ hτ' _ _ _ => exact hτ'

/-- All pages that were rendered are settled. -/
theorem shown (hσ : iv.Reachable σ) (h : iv.Viewing id σ views τ) {s : Session}
    (hs : τ.load id = .ok s) : ∀ v ∈ views, iv.Shown s v.1 v.2 := by
  induction h generalizing s with
  | opening =>
    intro v hv
    cases hv
  | @render views τ before page p rendered g hviews hload hp htakes hreply ih =>
    have hτ := (hviews.reachable hσ).placed
    obtain ⟨t, ht, hgrown, hshown⟩ := renderPage_ok hτ hload hp htakes hreply
    cases ht.symm.trans hs
    intro v hv
    rcases List.mem_append.1 hv with hv | hv
    · exact (ih hload v hv).grown hgrown
    · rw [List.mem_singleton.1 hv]
      exact hshown
  | meanwhile _ hload _ ht hgrown ih =>
    cases ht.symm.trans hs
    exact fun v hv => (ih hload v hv).grown hgrown

end Viewing

end Interview

/-! ## A page with an order -/

namespace Sample.OneBrand

/-- A question about known brands. Its choices are put in random order, but there is one only. -/
def question : Question :=
  { BrandTracker.plainQuestion "q_aware" "p_screen" "AWARE" .multipleChoice
      "Which of these brands have you heard of?" with
    choiceOrder := .random
    choices := BrandTracker.choices "aware" [("nike", "Nike")] }

/-- The brand tracker cut down to this question. -/
def survey : Survey :=
  { BrandTracker.survey .null with
    pages := [BrandTracker.plainPage "p_screen" 0 "About you"]
    questions := [question]
    jumpRules := []
    batteries := [] }

/-- The interview. -/
def interview : Interview := ⟨survey, Settings.default, .ofScript [0]⟩

/-- The store with a new session. -/
def store : Store := (interview.start .emptyMemory (.text "demo") ∅).store

end Sample.OneBrand

end Questionnaire
