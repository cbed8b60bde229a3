import Questionnaire.Proofs.Document.Reading
import Questionnaire.Survey.Document

/-!
# Surveys read back

Every part of a survey is read back from its document: each member is written under one key and read
under the same, and what a part holds is read back by the same lemma for that part. Only a register
is changed on the way, where ids that are not texts are shown under their texts, and nothing in a
survey but the attributes of a dataset's rows stands in one. So reading the document of a survey
gives the survey as it was shown (`Survey.ofDocument_toDocument`), which is shown again the same
(`Survey.toDocument_shown`) and is the survey itself if attributes have texts for names
(`Survey.shown_of_namesTexts`).
-/

namespace Questionnaire

open Document

/-! ## Codes -/

theorem QuestionKind.ofCode?_code (k : QuestionKind) : ofCode? k.code = some k := by
  cases k <;> decide

theorem OrderMode.ofCode?_code (m : OrderMode) : ofCode? m.code = some m := by
  cases m <;> decide

theorem LoopSource.ofCode?_code (s : LoopSource) : ofCode? s.code = some s := by
  cases s <;> decide

theorem DestinationKind.ofCode?_code (k : DestinationKind) : ofCode? k.code = some k := by
  cases k <;> decide

theorem CarryFilter.ofCode?_code (f : CarryFilter) : ofCode? f.code = some f := by
  cases f <;> decide

/-! ## Parts without registers -/

@[simp] theorem Criterion.ofDocument_toDocument (c : Option Criterion) :
    ofDocument (toDocument c) = .ok c := by
  cases c with
  | none => rfl
  | some c =>
    have hread (members : List (String × Value)) : ofDocument (ofMembers members) = (do
        let id ← required (ofMembers members) "id"
        let body ← optional (ofMembers members) "dsl" (.text "")
        let note ← optional (ofMembers members) "description" .null
        .ok (some { id := id, text := body, note := note })) := rfl
    simp [toDocument, hread, Dict.lookup]

theorem Page.ofDocument_toDocument (p : Page) : ofDocument p.toDocument = .ok p := by
  simp [toDocument, ofDocument, Dict.lookup, Criterion.ofMember, OrderMode.ofMember,
    oneOf_code OrderMode.ofCode?_code]

theorem Group.ofDocument_toDocument (g : Group) : ofDocument g.toDocument = .ok g := by
  simp [toDocument, ofDocument, Dict.lookup, Criterion.ofMember, OrderMode.ofMember,
    oneOf_code OrderMode.ofCode?_code]

theorem Choice.ofDocument_toDocument (c : Choice) : ofDocument c.toDocument = .ok c := by
  simp [toDocument, ofDocument, Dict.lookup, Criterion.ofMember]

theorem ChoiceGroup.ofDocument_toDocument (g : ChoiceGroup) : ofDocument g.toDocument = .ok g := by
  simp [toDocument, ofDocument, Dict.lookup, Criterion.ofMember]

theorem Question.ofDocument_toDocument (q : Question) : ofDocument q.toDocument = .ok q := by
  simp [toDocument, ofDocument, Dict.lookup, Criterion.ofMember, OrderMode.ofMember,
    oneOf_code OrderMode.ofCode?_code, oneOf_code QuestionKind.ofCode?_code,
    oneOf_code CarryFilter.ofCode?_code, asList_ofList_self Choice.ofDocument_toDocument,
    asList_ofList_self ChoiceGroup.ofDocument_toDocument]

theorem Destination.ofDocument_toDocument (d : Destination) : ofDocument d.toDocument = .ok d := by
  simp [toDocument, ofDocument, Dict.lookup, oneOf_code DestinationKind.ofCode?_code]

/-- A jump rule is read back whatever the name of its source, but the names of other members. -/
theorem JumpRule.ofDocumentFrom_toDocumentFrom {sourceKey : String}
    (hkey : sourceKey ∉ ["id", "destination", "condition", "priority"]) (r : JumpRule) :
    ofDocumentFrom sourceKey (r.toDocumentFrom sourceKey) = .ok r := by
  simp only [List.mem_cons, List.not_mem_nil, or_false, not_or] at hkey
  obtain ⟨hid, hdestination, hcondition, hpriority⟩ := hkey
  simp [toDocumentFrom, ofDocumentFrom, Dict.lookup, Criterion.ofMember, Ne.symm hid, hdestination,
    hcondition, hpriority, Destination.ofDocument_toDocument]

theorem JumpRule.ofDocument_toDocument (r : JumpRule) : ofDocument r.toDocument = .ok r :=
  ofDocumentFrom_toDocumentFrom (by decide) r

theorem JumpRule.ofPageDocument_toPageDocument (r : JumpRule) :
    ofPageDocument r.toPageDocument = .ok r :=
  ofDocumentFrom_toDocumentFrom (by decide) r

/-! ## Datasets -/

namespace DatasetRow

/-- The row as its document shows it. -/
def shown (r : DatasetRow) : DatasetRow := { r with attributes := r.attributes.shown }

theorem ofDocument_toDocument (r : DatasetRow) : ofDocument r.toDocument = .ok r.shown := by
  simp [toDocument, documentWith, ofDocument, Dict.lookup, asRegister_ofRegister, shown]

theorem toDocument_shown (r : DatasetRow) : r.shown.toDocument = r.toDocument := by
  simp [toDocument, documentWith, shown, ofRegister]

end DatasetRow

namespace Battery

/-- The battery as its document shows it. -/
def shown (b : Battery) : Battery := { b with rows := b.rows.map DatasetRow.shown }

theorem ofDocument_toDocument (b : Battery) : ofDocument b.toDocument = .ok b.shown := by
  have hrows : asList DatasetRow.ofDocument (ofList (DatasetRow.documentWith ofRegister) b.rows) =
      .ok (b.rows.map DatasetRow.shown) :=
    asList_ofList fun r _ => r.ofDocument_toDocument
  simp [toDocument, documentWith, ofDocument, Dict.lookup, oneOf_code LoopSource.ofCode?_code,
    hrows, shown]

theorem toDocument_shown (b : Battery) : b.shown.toDocument = b.toDocument := by
  have hrows : ofList (DatasetRow.documentWith ofRegister) (b.rows.map DatasetRow.shown) =
      ofList (DatasetRow.documentWith ofRegister) b.rows :=
    ofList_map fun r _ => r.toDocument_shown
  simp [toDocument, documentWith, shown, hrows]

end Battery

/-! ## Surveys -/

namespace Survey

/-- The survey as its document shows it. -/
def shown (s : Survey) : Survey := { s with batteries := s.batteries.map Battery.shown }

/-- The attributes of all rows have texts for names. -/
def NamesTexts (s : Survey) : Prop :=
  ∀ b ∈ s.batteries, ∀ r ∈ b.rows, r.attributes.others = []

instance (s : Survey) : Decidable s.NamesTexts :=
  inferInstanceAs (Decidable (∀ b ∈ s.batteries, ∀ r ∈ b.rows, r.attributes.others = []))

theorem ofDocument_toDocument (s : Survey) : ofDocument s.toDocument = .ok s.shown := by
  have hbatteries :
      asList Battery.ofDocument (ofList (Battery.documentWith ofRegister) s.batteries) =
        .ok (s.batteries.map Battery.shown) :=
    asList_ofList fun b _ => b.ofDocument_toDocument
  simp [toDocument, documentWith, ofDocument, Dict.lookup, hbatteries, shown,
    asList_ofList_self Page.ofDocument_toDocument, asList_ofList_self Group.ofDocument_toDocument,
    asList_ofList_self Question.ofDocument_toDocument,
    asList_ofList_self JumpRule.ofDocument_toDocument,
    asList_ofList_self JumpRule.ofPageDocument_toPageDocument]

theorem toDocument_shown (s : Survey) : s.shown.toDocument = s.toDocument := by
  have hbatteries : ofList (Battery.documentWith ofRegister) (s.batteries.map Battery.shown) =
      ofList (Battery.documentWith ofRegister) s.batteries :=
    ofList_map fun b _ => b.toDocument_shown
  simp [toDocument, documentWith, shown, hbatteries]

theorem shown_of_namesTexts {s : Survey} (h : s.NamesTexts) : s.shown = s := by
  have hbatteries : s.batteries.map Battery.shown = s.batteries := by
    refine (List.map_congr_left fun b hb => ?_).trans (List.map_id _)
    have hrows : b.rows.map DatasetRow.shown = b.rows := by
      refine (List.map_congr_left fun r hr => ?_).trans (List.map_id _)
      rw [DatasetRow.shown, Register.shown_of_others (h b hb r hr)]
      rfl
    rw [Battery.shown, hrows]
    rfl
  rw [shown, hbatteries]

end Survey

end Questionnaire
