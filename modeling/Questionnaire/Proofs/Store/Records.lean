import Questionnaire.Proofs.Document.Json.Values
import Questionnaire.Proofs.Document.Session
import Questionnaire.Proofs.Store.Slots

/-!
# Sessions that records keep

A session that keeps everything under texts and has plain values has a record: the text of its
document (`Session.record_eq`). The document is plain, so it is read back from the text, and the
session from the document (`Session.sessionOf?_record`). Whatever its version, a store of records
gives such a session back as it was put in (`Store.takes_of_isRepresentable`).
-/

namespace Questionnaire

open Document Json

/-! ## Plain documents -/

theorem Dict.mem_ofList {α : Type} {e : String × α} {l : List (String × α)}
    (h : e ∈ (Dict.ofList l).entries) : e ∈ l := by
  have hfold : ∀ (l : List (String × α)) (d : Dict α),
      e ∈ (l.foldl (fun d e => d.set e.1 e.2) d).entries → e ∈ l ∨ e ∈ d.entries := by
    intro l
    induction l with
    | nil => exact fun _ h => .inr h
    | cons a r ih =>
      intro d h
      rcases ih _ h with h | h
      · exact .inl (.tail _ h)
      · rcases Dict.mem_put h with h | h
        · exact .inl (h ▸ .head _)
        · exact .inr h
  rcases hfold l ∅ h with h | h
  · exact h
  · cases h

theorem Document.isPlain_ofMembers {members : List (String × Value)}
    (h : ∀ e ∈ members, IsPlain e.2) : IsPlain (ofMembers members) :=
  .map (Dict.ofList members).nodup_keys fun e he => h e (Dict.mem_ofList he)

theorem Document.isPlain_ofDict {d : Dict Value} (h : ∀ e ∈ d.entries, IsPlain e.2) :
    IsPlain (.ofDict d) :=
  .map d.nodup_keys h

theorem Document.isPlain_ofList {α : Type} {f : α → Value} {l : List α}
    (h : ∀ a ∈ l, IsPlain (f a)) : IsPlain (ofList f l) := by
  refine .list fun v hv => ?_
  obtain ⟨a, ha, rfl⟩ := List.mem_map.1 hv
  exact h a ha

theorem Document.isPlain_orNull {o : Option Value} (h : ∀ v ∈ o, IsPlain v) :
    IsPlain (.orNull o) := by
  cases o with
  | none => exact .null
  | some v => exact h v rfl

/-- A loop item with plain values. -/
structure LoopItem.HasPlainValues (i : LoopItem) : Prop where
  key : IsPlain i.key
  label : IsPlain i.label
  attributes : ∀ e ∈ i.attributes.texts.entries, IsPlain e.2

/-- A loop plan with plain values. -/
structure LoopPlan.HasPlainValues (p : LoopPlan) : Prop where
  batteryId : IsPlain p.batteryId
  items : ∀ i ∈ p.items, i.HasPlainValues
  cursor : IsPlain p.cursor

/-- A session with plain values, whatever its version is. -/
structure Session.HasPlainValues (s : Session) : Prop where
  id : IsPlain s.id
  surveyId : IsPlain s.surveyId
  responses : ∀ e ∈ s.responses.texts.entries, IsPlain e.2
  embedded : ∀ e ∈ s.embedded.texts.entries, IsPlain e.2
  plans : ∀ e ∈ s.plans.texts.entries, e.2.HasPlainValues
  orders : ∀ e ∈ s.orders.entries, ∀ v ∈ e.2, IsPlain v
  currentPage : ∀ v ∈ s.currentPage, IsPlain v
  history : ∀ v ∈ s.history, IsPlain v
  completed : IsPlain s.completed
  terminated : IsPlain s.terminated
  terminationReason : ∀ v ∈ s.terminationReason, IsPlain v

/-- A session that a record can keep: everything in it stands under texts and is plain. -/
structure Session.IsRepresentable (s : Session) : Prop where
  keepsTexts : s.KeepsTexts
  values : s.HasPlainValues

/-- A register under texts is shown without a change. -/
theorem Document.ofRegister_of_others {r : Register Value} (h : r.others = []) :
    ofRegister r = .ofDict r.texts := by
  rw [ofRegister, Register.toDict, h, List.foldl_nil]

theorem LoopItem.isPlain_toDocument {i : LoopItem} (h : i.HasPlainValues)
    (hothers : i.attributes.others = []) : IsPlain i.toDocument := by
  refine isPlain_ofMembers ?_
  simp only [List.forall_mem_cons, ofRegister_of_others hothers]
  exact ⟨h.key, h.label, isPlain_ofDict h.attributes, by simp⟩

theorem LoopPlan.isPlain_toDocument {p : LoopPlan} (h : p.HasPlainValues)
    (hothers : ∀ i ∈ p.items, i.attributes.others = []) : IsPlain p.toDocument := by
  refine isPlain_ofMembers ?_
  simp only [List.forall_mem_cons]
  refine ⟨h.batteryId, isPlain_ofList fun i hi => ?_, h.cursor, by simp⟩
  exact LoopItem.isPlain_toDocument (h.items i hi) (hothers i hi)

namespace Session

variable {s : Session}

theorem isPlain_plansDocument (h : s.IsRepresentable) : IsPlain (s.plansWith ofRegister) := by
  have hothers : (s.plans.map (LoopPlan.documentWith ofRegister)).others = [] := by
    rw [Register.map, h.keepsTexts.plans, List.map_nil]
  rw [plansWith, ofRegister_of_others hothers]
  refine isPlain_ofDict fun e he => ?_
  obtain ⟨a, ha, rfl⟩ := List.mem_map.1 he
  exact LoopPlan.isPlain_toDocument (h.values.plans a ha) (h.keepsTexts.attributes a ha)

theorem isPlain_ordersDocument (h : s.IsRepresentable) : IsPlain s.ordersDocument := by
  refine isPlain_ofDict fun e he => ?_
  obtain ⟨a, ha, rfl⟩ := List.mem_map.1 he
  exact .list (h.values.orders a ha)

/-- The document of a session that a record can keep is plain. -/
theorem isPlain_toDocument (h : s.IsRepresentable) (hversion : IsPlain s.version) :
    IsPlain s.toDocument := by
  have hrender : IsPlain (ofMembers
      [("loop_plans", s.plansWith ofRegister), ("order_cache", s.ordersDocument)]) := by
    refine isPlain_ofMembers ?_
    simp only [List.forall_mem_cons]
    exact ⟨isPlain_plansDocument h, isPlain_ordersDocument h, by simp⟩
  obtain ⟨htexts, h⟩ := h
  refine isPlain_ofMembers ?_
  simp only [List.forall_mem_cons, ofRegister_of_others htexts.responses,
    ofRegister_of_others htexts.embedded]
  exact ⟨h.id, h.surveyId, isPlain_ofDict h.responses, isPlain_ofDict h.embedded, hrender,
    isPlain_orNull h.currentPage, .list h.history, h.completed, h.terminated,
    isPlain_orNull h.terminationReason, hversion, by simp⟩

/-! ## Records -/

theorem demandOrder_of_others {α : Type} {r : Register α} (h : r.others = []) :
    Record.demandOrder r = .ok () := by
  have htexts : (r.entries.map Prod.fst).all Value.isText = true := by
    simp [Register.entries, h, Value.isText]
  simp only [Record.demandOrder, demandComparable, Value.areComparable, htexts, Bool.or_true,
    Bool.true_or, if_true]

theorem forM_eq_ok {α ε : Type} {f : α → Except ε Unit} :
    ∀ {l : List α}, (∀ a ∈ l, f a = .ok ()) → l.forM f = .ok ()
  | [], _ => rfl
  | a :: r, h => by
    have hcons : (a :: r).forM f = (f a >>= fun _ => r.forM f) := rfl
    rw [hcons, h a (.head _)]
    exact forM_eq_ok fun b hb => h b (.tail _ hb)

/-- A record writes a register under texts as a document does. -/
theorem recordRegister_eq {r : Register Value} (h : r.others = []) :
    Record.ofRegister r = ofRegister r := by
  rw [ofRegister_of_others h, Record.ofRegister, h]
  rfl

theorem documentWith_record (h : s.KeepsTexts) :
    s.documentWith Record.ofRegister = s.toDocument := by
  have hitem : ∀ e ∈ s.plans.texts.entries, ∀ i ∈ e.2.items,
      i.documentWith Record.ofRegister = i.documentWith ofRegister := fun e he i hi => by
    rw [LoopItem.documentWith, LoopItem.documentWith, recordRegister_eq (h.attributes e he i hi)]
  have hplan : ∀ e ∈ s.plans.texts.entries,
      e.2.documentWith Record.ofRegister = e.2.documentWith ofRegister := fun e he => by
    rw [LoopPlan.documentWith, LoopPlan.documentWith, ofList, ofList,
      List.map_congr_left (hitem e he)]
  have hmap : s.plans.map (LoopPlan.documentWith Record.ofRegister) =
      s.plans.map (LoopPlan.documentWith ofRegister) := by
    simp only [Register.map, Dict.map, h.plans, List.map_nil]
    congr 2
    exact List.map_congr_left fun e he => by rw [hplan e he]
  have hothers : (s.plans.map (LoopPlan.documentWith ofRegister)).others = [] := by
    rw [Register.map, h.plans, List.map_nil]
  simp only [toDocument, documentWith, plansWith, hmap, recordRegister_eq h.responses,
    recordRegister_eq h.embedded, recordRegister_eq hothers]

/-- The record of a session that keeps everything under texts is the text of its document. -/
theorem record_eq (h : s.KeepsTexts) : s.record = .ok (print s.toDocument) := by
  have hitems : (s.plans.entries.flatMap fun e => e.2.items).forM
      (fun i => Record.demandOrder i.attributes) = .ok () := by
    refine forM_eq_ok fun i hi => demandOrder_of_others ?_
    obtain ⟨e, he, hi⟩ := List.mem_flatMap.1 hi
    simp only [Register.entries, h.plans, List.append_nil, List.mem_map] at he
    obtain ⟨a, ha, rfl⟩ := he
    exact h.attributes a ha i hi
  simp only [record, demandOrder_of_others h.responses, demandOrder_of_others h.embedded,
    demandOrder_of_others h.plans, hitems, documentWith_record h, ok_bind]

/-- A session that a record can keep is read back from its record. -/
theorem sessionOf?_record (h : s.IsRepresentable) (hversion : IsPlain s.version) :
    Store.sessionOf? (print s.toDocument) = some s := by
  rw [Store.sessionOf?, parse?_print (isPlain_toDocument h hversion), Option.bind_some,
    s.ofDocument_toDocument, shown_of_keepsTexts h.keepsTexts]
  rfl

/-- The version does not matter to whether a record can keep a session. -/
theorem IsRepresentable.atVersion (h : s.IsRepresentable) (n : Nat) :
    (s.atVersion n).IsRepresentable where
  keepsTexts := { h.keepsTexts with }
  values := { h.values with }

end Session

/-- A store of records gives back what a record can keep. -/
theorem Store.takes_of_isRepresentable {s : Session} (h : s.IsRepresentable) (σ : Store) :
    σ.Takes s := by
  intro n
  cases σ with
  | memory _ => trivial
  | files _ =>
    have hn := h.atVersion n
    exact ⟨_, Session.record_eq hn.keepsTexts, Session.sessionOf?_record hn (.int n)⟩

end Questionnaire
