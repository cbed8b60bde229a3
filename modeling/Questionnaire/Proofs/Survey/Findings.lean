import Mathlib.Data.List.Nodup
import Questionnaire.Survey.Audit

/-!
# What a clean audit says

A survey is not refused if whatever is found about it is a warning (`Survey.validate_eq_ok_iff`).
Repeated keys are found wherever there are any (`Audit.nodup_of_repeatedBy_eq_nil`), so the indexes
of the pages of a survey that is not refused are told apart (`Survey.nodup_pageIndexes`).
-/

namespace Questionnaire

namespace Audit

section
variable {α κ : Type} [BEq κ] {key : α → κ} {l : List α}

theorem distinctBy_eq_nil_iff : distinctBy key l = [] ↔ l = [] := by
  cases l <;> simp [distinctBy]

/-- Every key of a list is the key of one of its first elements. -/
theorem exists_mem_distinctBy [LawfulBEq κ] :
    ∀ {l : List α} {a : α}, a ∈ l → ∃ b ∈ distinctBy key l, key b = key a
  | c :: r, a, ha => by
    by_cases hkey : key c = key a
    · exact ⟨c, .head _, hkey⟩
    · have har : a ∈ r := by
        rcases List.mem_cons.1 ha with rfl | har
        · exact absurd rfl hkey
        · exact har
      obtain ⟨b, hb, hba⟩ := exists_mem_distinctBy har
      refine ⟨b, .tail _ (List.mem_filter.2 ⟨hb, ?_⟩), hba⟩
      have hne : key b ≠ key c := fun h => hkey (h.symm.trans hba)
      simpa using hne

/-- A key that several elements have is found, so if none is found they all differ. -/
theorem nodup_of_repeatedBy_eq_nil [LawfulBEq κ] (h : repeatedBy key l = []) :
    (l.map key).Nodup := by
  rw [List.nodup_iff_count_le_one]
  intro k
  by_cases hk : k ∈ l.map key
  · obtain ⟨a, ha, rfl⟩ := List.mem_map.1 hk
    obtain ⟨b, hb, hba⟩ : ∃ b ∈ distinctBy key l, key b = key a := exists_mem_distinctBy ha
    have honce := List.filter_eq_nil_iff.1 h b hb
    rw [hba] at honce
    simpa using honce
  · rw [List.count_eq_zero_of_not_mem hk]
    exact Nat.zero_le 1

theorem distinctBy_sublist : ∀ l : List α, (distinctBy key l).Sublist l
  | [] => .slnil
  | a :: r => (List.filter_sublist.trans (distinctBy_sublist r)).cons_cons a

theorem mem_distinct [BEq α] [LawfulBEq α] {a : α} : a ∈ distinct l ↔ a ∈ l := by
  refine ⟨fun h => (distinctBy_sublist l).subset h, fun h => ?_⟩
  obtain ⟨b, hb, rfl⟩ : ∃ b ∈ distinct l, b = a := exists_mem_distinctBy h
  exact hb

end

end Audit

namespace Survey

variable {survey : Survey} {report : Report} {message : String}

theorem mem_errors_iff :
    message ∈ survey.audit.errors ↔ .error message ∈ Audit.findings survey := by
  rw [audit, Audit.mem_distinct, List.mem_filterMap]
  constructor
  · rintro ⟨f, hf, hmessage⟩
    cases f <;> cases hmessage
    exact hf
  · exact fun h => ⟨_, h, rfl⟩

theorem mem_warnings_iff :
    message ∈ survey.audit.warnings ↔ .warning message ∈ Audit.findings survey := by
  rw [audit, Audit.mem_distinct, List.mem_filterMap]
  constructor
  · rintro ⟨f, hf, hmessage⟩
    cases f <;> cases hmessage
    exact hf
  · exact fun h => ⟨_, h, rfl⟩

/-- There are no errors if all that is found is a warning. -/
theorem errors_eq_nil_iff :
    survey.audit.errors = [] ↔ ∀ f ∈ Audit.findings survey, f.error? = none :=
  Audit.distinctBy_eq_nil_iff.trans List.filterMap_eq_nil_iff

/-- A survey is not refused if nothing that is found about it is an error. -/
theorem validate_eq_ok_iff : survey.validate = .ok report ↔
    (∀ f ∈ Audit.findings survey, f.error? = none) ∧ survey.audit = report := by
  have hvalid : survey.audit.isValid = true ↔ survey.audit.errors = [] := List.isEmpty_iff
  rw [← errors_eq_nil_iff, ← hvalid, validate]
  cases survey.audit.isValid <;> simp

/-- The indexes of the pages of a survey that is not refused are told apart. -/
theorem nodup_pageIndexes (h : survey.validate = .ok report) :
    (survey.pages.map Page.index).Nodup := by
  have hnone : Audit.repeatedIds (survey.pages.map Page.index) = [] := by
    rw [List.eq_nil_iff_forall_not_mem]
    intro i hi
    have hfound : Audit.Finding.error ("Duplicate page index " ++ i.display) ∈
        Audit.findings survey := by
      simp only [Audit.findings, Audit.structureFindings, List.mem_append]
      exact .inl (.inl (.inl (.inl (.inl (List.mem_map_of_mem hi)))))
    cases (validate_eq_ok_iff.1 h).1 _ hfound
  exact (Audit.nodup_of_repeatedBy_eq_nil hnone).of_map

end Survey

end Questionnaire
