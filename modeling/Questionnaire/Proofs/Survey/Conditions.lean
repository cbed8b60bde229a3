import Questionnaire.Page.Carried
import Questionnaire.Proofs.Condition.Open
import Questionnaire.Proofs.Survey.Findings

/-!
# The conditions of an audited survey

What of a survey is shown, and where it leads, depends on conditions (`Survey.DependsOn`), among
them those of choices that are carried from one question to another. The audit reads every one of
them (`Survey.DependsOn.mem_criteria`). So if it finds no errors and no undefined variables, every
one of them is a text that can be read and whose variables are known, whatever was answered
(`Survey.understands`).
-/

namespace Questionnaire

/-- A failure to read a condition, or to know what one of its variables means. -/
def Condition.Failure.isMistake : Condition.Failure → Bool
  | .malformed _ | .unknownReference _ => true
  | _ => false

namespace Survey

/-- A condition on which it depends what of a survey is shown or where it leads. A question also
shows choices that are carried into it, whichever an answer selects. -/
inductive DependsOn (survey : Survey) : Criterion → Prop
  | page {p : Page} {c : Criterion} : p ∈ survey.pages → p.visibleIf = some c → survey.DependsOn c
  | group {g : Group} {c : Criterion} : g ∈ survey.groups → g.visibleIf = some c →
      survey.DependsOn c
  | question {q : Question} {c : Criterion} : q ∈ survey.questions → q.visibleIf = some c →
      survey.DependsOn c
  | choiceGroup {q : Question} {g : ChoiceGroup} {c : Criterion} : q ∈ survey.questions →
      g ∈ q.choiceGroups → g.visibleIf = some c → survey.DependsOn c
  | choice {q : Question} {responses : Register Value} {choice : Choice} {c : Criterion} :
      q ∈ survey.questions → choice ∈ (Carried.allChoices q survey responses).1 →
        choice.visibleIf = some c → survey.DependsOn c
  | termination {q : Question} {c : Criterion} : q ∈ survey.questions → q.terminateIf = some c →
      survey.DependsOn c
  | rule {r : JumpRule} {c : Criterion} : r ∈ survey.jumpRules ++ survey.pageJumpRules →
      r.condition = some c → survey.DependsOn c

/-- A condition that is a text and is judged without a mistake in it, whatever was answered. -/
def Understands (survey : Survey) (c : Criterion) : Prop :=
  ∃ text, c.text = .text text ∧ ∀ responses embedded e,
    (Context.mk responses embedded survey.questions).judge text = .error e → e.isMistake = false

end Survey

/-! ## The audit reads all conditions -/

namespace Carried

variable {q : Question} {survey : Survey} {responses : Register Value} {c : Choice}

/-- A carried choice is shown on the condition of the choice that it is carried from. -/
theorem exists_of_mem_renumbered {first : Value} : ∀ {n : Nat} {l : List Choice},
    c ∈ renumbered first n l → ∃ d ∈ l, c.visibleIf = d.visibleIf
  | _, d :: r, h => by
    rcases List.mem_cons.1 h with rfl | h
    · exact ⟨d, .head _, rfl⟩
    · obtain ⟨d', hd', he⟩ := exists_of_mem_renumbered h
      exact ⟨d', .tail _ hd', he⟩

/-- Every choice of a question is shown on the condition of an authored one. -/
theorem exists_of_mem_allChoices (hq : q ∈ survey.questions)
    (h : c ∈ (allChoices q survey responses).1) :
    ∃ source ∈ survey.questions, ∃ d ∈ source.choices, c.visibleIf = d.visibleIf := by
  rcases List.mem_append.1 h with h | h
  · exact ⟨q, hq, c, (sortedBy_perm _ _).mem_iff.1 h, rfl⟩
  · have h : c ∈ (carriedChoices q survey responses).1 := h
    unfold carriedChoices at h
    split at h
    · cases h
    · split at h
      · cases h
      · next source hsource =>
        obtain ⟨d, hd, he⟩ := exists_of_mem_renumbered h
        have hpicked := (sortedBy_perm _ _).mem_iff.1 (List.mem_filter.1 hd).1
        exact ⟨source, List.mem_of_find?_eq_some hsource, d, (List.mem_filter.1 hpicked).1, he⟩

end Carried

namespace Survey

variable {survey : Survey} {c : Criterion}

/-- The audit reads every condition that something depends on. -/
theorem DependsOn.mem_criteria (h : survey.DependsOn c) :
    ∃ owner, (owner, c) ∈ Audit.criteria survey := by
  simp only [Audit.criteria, List.mem_append, List.mem_flatMap, Option.mem_toList, List.mem_map,
    Prod.mk.injEq]
  cases h with
  | @page p _ hp hc => exact ⟨_, .inl (.inl (.inl (.inl ⟨p, hp, c, hc, rfl, rfl⟩)))⟩
  | @group g _ hg hc => exact ⟨_, .inl (.inl (.inl (.inr ⟨g, hg, c, hc, rfl, rfl⟩)))⟩
  | @question q _ hq hc =>
    exact ⟨_, .inl (.inl (.inr ⟨q, hq, .inl (.inl (.inl ⟨c, hc, rfl, rfl⟩))⟩))⟩
  | @choiceGroup q g _ hq hg hc =>
    exact ⟨_, .inl (.inl (.inr ⟨q, hq, .inl (.inl (.inr ⟨g, hg, c, hc, rfl, rfl⟩))⟩))⟩
  | choice hq hchoice hc =>
    obtain ⟨source, hsource, d, hd, he⟩ := Carried.exists_of_mem_allChoices hq hchoice
    exact ⟨_, .inl (.inl (.inr ⟨source, hsource, .inl (.inr ⟨d, hd, c, he ▸ hc, rfl, rfl⟩)⟩))⟩
  | @termination q _ hq hc => exact ⟨_, .inl (.inl (.inr ⟨q, hq, .inr ⟨c, hc, rfl, rfl⟩⟩))⟩
  | @rule r _ hr hc =>
    rcases List.mem_append.1 hr with hr | hr
    · exact ⟨_, .inl (.inr ⟨r, hr, c, hc, rfl, rfl⟩)⟩
    · exact ⟨_, .inr ⟨r, hr, c, hc, rfl, rfl⟩⟩

/-- A survey without errors has conditions that can be read. -/
theorem exists_conditionOf (h : survey.audit.errors = []) {owned : String × Criterion}
    (howned : owned ∈ Audit.criteria survey) :
    ∃ condition, Audit.conditionOf owned.2 = .ok condition := by
  cases hread : Audit.conditionOf owned.2 with
  | ok condition => exact ⟨condition, rfl⟩
  | error e =>
    have hfound : ∀ f ∈ Audit.criterionFindings owned, f ∈ Audit.findings survey := by
      intro f hf
      simp only [Audit.findings, Audit.conditionFindings, List.mem_append, List.mem_flatMap]
      exact .inl (.inl (.inr (.inl ⟨owned, howned, hf⟩)))
    rw [Audit.criterionFindings, hread] at hfound
    cases errors_eq_nil_iff.1 h _ (hfound _ (.head _))

end Survey

/-! ## Variables -/

namespace Dict

variable {α : Type}

theorem mem_keys_of_get? {d : Dict α} {k : String} (h : (d.get? k).isSome = true) : k ∈ d.keys := by
  have hlookup : ∀ l : List (String × α), (lookup k l).isSome = true → k ∈ l.map (·.1) := by
    intro l
    induction l with
    | nil => nofun
    | cons e r ih =>
      obtain ⟨j, v⟩ := e
      intro h
      rw [lookup] at h
      split at h
      · next heq => exact heq ▸ .head _
      · exact .tail _ (ih h)
  exact hlookup d.entries h

end Dict

namespace Audit

/-- Counting keeps what was counted, and counts what comes. -/
theorem isSome_get?_foldl {v : String} : ∀ {l : List String} {d : Dict Nat},
    v ∈ l ∨ (d.get? v).isSome = true →
      ((l.foldl (fun d w => d.set w ((d.get? w).getD 0 + 1)) d).get? v).isSome = true
  | [], _, h => h.resolve_left List.not_mem_nil
  | w :: r, d, h => by
    rw [List.foldl_cons]
    refine isSome_get?_foldl ?_
    rw [Dict.get?_set]
    by_cases hv : v = w
    · exact .inr (by simp [hv])
    · rw [if_neg hv]
      exact h.imp_left fun hmem => (List.mem_cons.1 hmem).resolve_left hv

/-- What is not undefined is the variable of a question. -/
theorem isAmong_of_undefined_eq_nil {s : Survey} (h : undefinedVariables s = [])
    {owned : String × Criterion} (howned : owned ∈ criteria s) {condition : Condition}
    (hread : conditionOf owned.2 = .ok condition) {v : String} (hv : v ∈ condition.references) :
    (Value.text v).isAmong (s.questions.map Question.variableName) = true := by
  have hused : v ∈ (usage s).keys := by
    refine Dict.mem_keys_of_get? (isSome_get?_foldl (.inl ?_))
    refine List.mem_flatMap.2 ⟨owned, howned, ?_⟩
    rw [variablesOf, hread]
    exact mem_distinct.2 hv
  have hall := List.filter_eq_nil_iff.1 h v hused
  simpa using hall

end Audit

namespace Context

variable {ctx : Context} {v : String}

/-- A variable of a question means what is known of the question. -/
theorem isMistake_of_resolve
    (hv : (Value.text v).isAmong (ctx.questions.map Question.variableName) = true)
    {e : Condition.Failure} (h : ctx.resolve (.text v) = .error e) : e.isMistake = false := by
  have hfound : (ctx.question? (.text v)).isSome = true := by
    rw [question?, List.find?_isSome]
    obtain ⟨name, hname, hagree⟩ := List.any_eq_true.1 hv
    obtain ⟨q, hq, rfl⟩ := List.mem_map.1 hname
    rw [Value.agrees_comm] at hagree
    have hsame : q.variableName = .text v := (Value.eq_of_agrees rfl hagree).symm
    exact ⟨q, hq, (Value.equal_iff_of_isText rfl).2 hsame⟩
  unfold resolve at h
  split at h
  · split at h <;> cases h
    rfl
  · next hnone =>
    rw [hnone] at hfound
    cases hfound

end Context

namespace Survey

variable {survey : Survey} {c : Criterion}

/-- A survey without errors and undefined variables understands all its conditions. -/
theorem understands (herrors : survey.audit.errors = []) (hundefined : survey.audit.undefined = [])
    (h : survey.DependsOn c) : survey.Understands c := by
  obtain ⟨owner, howned⟩ := h.mem_criteria
  obtain ⟨condition, hread⟩ := exists_conditionOf herrors howned
  have hknown : ∀ v ∈ condition.references,
      (Value.text v).isAmong (survey.questions.map Question.variableName) = true :=
    fun v hv => Audit.isAmong_of_undefined_eq_nil hundefined howned hread hv
  have hwritten : ∃ text, c.text = .text text ∧ Condition.parse text = .ok condition := by
    unfold Audit.conditionOf at hread
    split at hread
    · next text htext => exact ⟨text, htext, hread⟩
    · cases hread
  obtain ⟨text, htext, hparse⟩ := hwritten
  refine ⟨text, htext, fun responses embedded e he => ?_⟩
  rw [Context.judge, hparse] at he
  rcases Condition.judge_failsWith _ condition e he with ⟨v, hv, hresolve⟩ | hcomparing
  · exact Context.isMistake_of_resolve (hknown v hv) hresolve
  · cases hcomparing <;> rfl

end Survey

end Questionnaire
