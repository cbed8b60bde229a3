import Questionnaire.Proofs.Document.Survey
import Questionnaire.Route.Planning
import Questionnaire.Sample.BrandTracker
import Questionnaire.Session.Document

/-!
# Sessions read back

A session is read back from its document as it was shown (`Session.ofDocument_toDocument`): answers,
embedded data and loop plans under the texts of their ids, and a page or a reason that is nothing as
if there were none. A session that keeps everything under texts is shown as it is
(`Session.shown_of_keepsTexts`), and so nothing of it is lost, whatever its answers, the cursors of
its plans, its history and its marks are.

What is shown once is shown the same again (`Session.toDocument_shown`). So the document of what was
read from a document, be it one that someone else wrote and that lacks members, is the document of
what is read from that one: `Document.codecs_lossless` puts this together for surveys and sessions.
-/

namespace Questionnaire

open Document

/-! ## Loop plans -/

namespace LoopItem

/-- The item as its document shows it. -/
def shown (i : LoopItem) : LoopItem := { i with attributes := i.attributes.shown }

theorem ofDocument_toDocument (i : LoopItem) : ofDocument i.toDocument = .ok i.shown := by
  simp [toDocument, documentWith, ofDocument, Dict.lookup, asRegister_ofRegister, shown]

theorem toDocument_shown (i : LoopItem) : i.shown.toDocument = i.toDocument := by
  simp [toDocument, documentWith, shown, ofRegister]

end LoopItem

namespace LoopPlan

/-- The plan as its document shows it. -/
def shown (p : LoopPlan) : LoopPlan := { p with items := p.items.map LoopItem.shown }

theorem ofDocument_toDocument (p : LoopPlan) : ofDocument p.toDocument = .ok p.shown := by
  have hitems : asList LoopItem.ofDocument (ofList (LoopItem.documentWith ofRegister) p.items) =
      .ok (p.items.map LoopItem.shown) :=
    asList_ofList fun i _ => i.ofDocument_toDocument
  simp [toDocument, documentWith, ofDocument, Dict.lookup, hitems, shown]

theorem toDocument_shown (p : LoopPlan) : p.shown.toDocument = p.toDocument := by
  have hitems : ofList (LoopItem.documentWith ofRegister) (p.items.map LoopItem.shown) =
      ofList (LoopItem.documentWith ofRegister) p.items :=
    ofList_map fun i _ => i.toDocument_shown
  simp [toDocument, documentWith, shown, hitems]

/-- A plan whose attributes have texts for names is shown as it is. -/
theorem shown_of_others {p : LoopPlan} (h : ∀ i ∈ p.items, i.attributes.others = []) :
    p.shown = p := by
  have hitems : p.items.map LoopItem.shown = p.items := by
    refine (List.map_congr_left fun i hi => ?_).trans (List.map_id _)
    rw [LoopItem.shown, Register.shown_of_others (h i hi)]
    rfl
  rw [shown, hitems]

end LoopPlan

/-! ## Sessions -/

namespace Session

variable {s : Session}

/-- The session as its document shows it. -/
def shown (s : Session) : Session :=
  { s with
    responses := s.responses.shown
    embedded := s.embedded.shown
    plans := (s.plans.map LoopPlan.shown).shown
    currentPage := (Value.orNull s.currentPage).given?
    terminationReason := (Value.orNull s.terminationReason).given? }

/-- Everything in the session is kept under texts, and what is absent is not kept as nothing. -/
structure KeepsTexts (s : Session) : Prop where
  responses : s.responses.others = []
  embedded : s.embedded.others = []
  plans : s.plans.others = []
  attributes : ∀ e ∈ s.plans.texts.entries, ∀ i ∈ e.2.items, i.attributes.others = []
  currentPage : s.currentPage ≠ some .null
  terminationReason : s.terminationReason ≠ some .null

theorem elements_list (items : List Value) : elements (.list items) = .ok items := rfl

/-- The loop plans of a session are read back as they were shown. -/
theorem asDictOf_plansDocument (s : Session) :
    asDictOf LoopPlan.ofDocument (s.plansWith ofRegister) =
      .ok (s.plans.map LoopPlan.shown).toDict := by
  rw [plansWith, ofRegister, Register.toDict_map, Register.toDict_map]
  exact asDictOf_ofDict fun e _ => e.2.ofDocument_toDocument

/-- The orders of a session are read back. -/
theorem asDictOf_ordersDocument (s : Session) :
    asDictOf elements s.ordersDocument = .ok s.orders := by
  have hread : asDictOf elements (.ofDict (s.orders.map fun _ ids => Value.list ids)) =
      .ok (s.orders.map fun _ ids => ids) :=
    asDictOf_ofDict fun e _ => elements_list e.2
  rw [ordersDocument, hread]
  exact congrArg Except.ok (Dict.ext_get? fun k => by rw [Dict.get?_map, Option.map_id'])

theorem ofDocument_toDocument (s : Session) : ofDocument s.toDocument = .ok s.shown := by
  simp [toDocument, documentWith, ofDocument, Dict.lookup, asRegister_ofRegister,
    asDictOf_plansDocument, asDictOf_ordersDocument, elements_list, shown, Register.shown]

theorem orNull_given? (v : Value) : Value.orNull v.given? = v := by
  cases v <;> rfl

theorem plansWith_shown (s : Session) :
    s.shown.plansWith ofRegister = s.plansWith ofRegister := by
  have hdocument (p : LoopPlan) : LoopPlan.documentWith ofRegister p.shown =
      LoopPlan.documentWith ofRegister p := p.toDocument_shown
  have hmap : (s.plans.map LoopPlan.shown).map (LoopPlan.documentWith ofRegister) =
      s.plans.map (LoopPlan.documentWith ofRegister) := by
    simp [Register.map, Dict.map, Function.comp_def, hdocument]
  rw [plansWith, plansWith, ← hmap]
  simp only [ofRegister, shown, Register.toDict_map, Register.toDict_shown]

theorem toDocument_shown (s : Session) : s.shown.toDocument = s.toDocument := by
  have hplans := s.plansWith_shown
  have horders : s.shown.ordersDocument = s.ordersDocument := rfl
  simp only [toDocument, documentWith, hplans, horders]
  simp [shown, ofRegister, orNull_given?]

theorem given?_orNull {o : Option Value} (h : o ≠ some .null) : (Value.orNull o).given? = o := by
  cases o with
  | none => rfl
  | some v =>
    cases v with
    | null => exact absurd rfl h
    | _ => rfl

theorem shown_of_keepsTexts (h : s.KeepsTexts) : s.shown = s := by
  have hplans : (s.plans.map LoopPlan.shown).shown = s.plans := by
    have hothers := h.plans
    have hattributes := h.attributes
    generalize s.plans = r at hothers hattributes
    obtain ⟨texts, others⟩ := r
    obtain rfl : others = [] := hothers
    have hentries : texts.entries.map (fun e => (e.1, e.2.shown)) = texts.entries :=
      (List.map_congr_left fun e he => by
        rw [LoopPlan.shown_of_others (hattributes e he)]
        rfl).trans (List.map_id _)
    simp only [Register.shown, Register.map, Register.toDict, Register.ofTexts, Dict.map, hentries,
      List.map_nil, List.foldl_nil]
  simp only [shown, Register.shown_of_others h.responses, Register.shown_of_others h.embedded,
    hplans, given?_orNull h.currentPage, given?_orNull h.terminationReason]

end Session

/-! ## Both codecs -/

/-- Surveys and sessions that keep everything under texts are read back from their documents as they
are. The document of what was read from a document, a complete one or not, is the document of what
is read from it. -/
theorem Document.codecs_lossless :
    (∀ s : Survey, s.NamesTexts → Survey.ofDocument s.toDocument = .ok s) ∧
    (∀ s : Session, s.KeepsTexts → Session.ofDocument s.toDocument = .ok s) ∧
    (∀ d d', (Survey.ofDocument d).map Survey.toDocument = .ok d' →
      (Survey.ofDocument d').map Survey.toDocument = .ok d') ∧
    ∀ d d', (Session.ofDocument d).map Session.toDocument = .ok d' →
      (Session.ofDocument d').map Session.toDocument = .ok d' := by
  refine ⟨fun s h => ?_, fun s h => ?_, fun d d' h => ?_, fun d d' h => ?_⟩
  · rw [s.ofDocument_toDocument, Survey.shown_of_namesTexts h]
  · rw [s.ofDocument_toDocument, Session.shown_of_keepsTexts h]
  · cases hd : Survey.ofDocument d with
    | error e => rw [hd] at h; cases h
    | ok s =>
      rw [hd] at h
      cases h
      rw [s.ofDocument_toDocument, Except.map, s.toDocument_shown]
  · cases hd : Session.ofDocument d with
    | error e => rw [hd] at h; cases h
    | ok s =>
      rw [hd] at h
      cases h
      rw [s.ofDocument_toDocument, Except.map, s.toDocument_shown]

namespace Sample.BrandTracker

/-- A respondent who knows none of the brands and is asked about the second store. -/
def session : Session :=
  { Session.new (.text "demo") (.text "brand_tracker") (.ofTexts (Dict.ofList [("wave", .int 4)]))
      with
    responses := .ofTexts (Dict.ofList [("q_age", .int 31), ("q_aware", .list [])])
    plans := .ofTexts (Dict.ofList
      [("brands", .skipped (.text "brands")),
        ("stores", ⟨.text "stores", (stores .null).rows.map Planning.rowItem, .int 1⟩)])
    orders := Dict.ofList [("RANDOM:q_aware", [.text "aware_puma", .text "aware_nike"])]
    currentPage := some (.text "p_store_visit")
    history := [.text "p_screen", .text "p_store_visit", .text "p_store_rate", .null]
    version := .int 4 }

theorem keepsTexts_session : session.KeepsTexts where
  responses := rfl
  embedded := rfl
  plans := rfl
  attributes := by decide
  currentPage := by decide
  terminationReason := by decide

end Sample.BrandTracker

open Sample in
/-- The brand tracker, a session of it, and a document of a session that has nothing but its two
ids. -/
theorem Document.codecs_lossless_brandTracker :
    let survey := BrandTracker.survey (.int 2)
    let session := BrandTracker.session
    let ids := ofMembers [("session_id", .text "demo"), ("survey_id", .text "brand_tracker")]
    let new := Session.new (.text "demo") (.text "brand_tracker") ∅
    Survey.ofDocument survey.toDocument = .ok survey ∧
      Session.ofDocument session.toDocument = .ok session ∧
      (Session.ofDocument ids).map Session.toDocument = .ok new.toDocument ∧
      (Session.ofDocument new.toDocument).map Session.toDocument = .ok new.toDocument := by
  intro survey session ids new
  have hids : (Session.ofDocument ids).map Session.toDocument = .ok new.toDocument := by
    have hread : Session.ofDocument ids = .ok new := rfl
    rw [hread, Except.map]
  have hsurvey : survey.NamesTexts := by decide
  obtain ⟨hreadSurvey, hreadSession, -, hshow⟩ := codecs_lossless
  exact ⟨hreadSurvey survey hsurvey, hreadSession session BrandTracker.keepsTexts_session, hids,
    hshow ids _ hids⟩

end Questionnaire
