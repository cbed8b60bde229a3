import Mathlib.Data.List.Pairwise
import Questionnaire.Condition.Open
import Questionnaire.Proofs.Condition.Unknown

/-!
# What a verdict depends on

A condition is judged by what the variables that it names mean, and by nothing else of what is known
of a respondent: contexts in which they mean the same give it the same verdict, or the same failure
(`Context.verdict_of_references`). So if the ids of the questions are distinct, the answer to a
question may change in any way without a change to the verdict on a condition that names neither the
variable of the question nor its id.
-/

namespace Questionnaire

/-- Registers with the same values under all ids but one. -/
def Register.SameBut {α : Type} (k : Id) (r r' : Register α) : Prop :=
  ∀ j : Id, j.agrees k = false → r'.get? j = r.get? j

theorem Register.sameBut_set {α : Type} (r : Register α) (k : Id) (v : α) :
    r.SameBut k (r.set k v) := by
  intro j hj
  rw [Register.get?_set, hj]
  rfl

namespace Context

open Condition

variable {ctx ctx' : Context} {text v : String} {c : Condition} {q : Question}
  {responses : Register Value}

/-- A variable that means the same in two contexts, or is unknown in both. -/
def MeansSame (ctx ctx' : Context) (v : String) : Prop :=
  (∃ w, ctx.resolve (.text v) = .ok w ∧ ctx'.resolve (.text v) = .ok w) ∨
    ctx.Unknown v ∧ ctx'.Unknown v

/-- Two contexts in which a text has the same verdict or the same failure, and the same open
verdict. -/
def SameVerdicts (ctx ctx' : Context) (text : String) : Prop :=
  ctx'.judge text = ctx.judge text ∧
    ∀ quiet, ctx'.judgeOpen quiet text = ctx.judgeOpen quiet text

/-- Questions with distinct ids. -/
def DistinctIds (questions : List Question) : Prop :=
  questions.Pairwise fun p q => p.id.agrees q.id = false

theorem MeansSame.resolve (h : ctx.MeansSame ctx' v) :
    ctx'.resolve (.text v) = ctx.resolve (.text v) := by
  rcases h with ⟨w, hw, hw'⟩ | ⟨hunknown, hunknown'⟩
  · rw [hw, hw']
  · rw [hunknown.resolve, hunknown'.resolve]

/-- Contexts that resolve what a condition names in the same way judge it in the same way. -/
theorem sameVerdicts_of_resolve (hparse : parse text = .ok c)
    (h : ∀ v ∈ c.references, ctx'.resolve (.text v) = ctx.resolve (.text v)) :
    ctx.SameVerdicts ctx' text := by
  have hjudge : ctx'.judge text = ctx.judge text := by
    rw [judge, judge, hparse]
    exact judge_congr fun v hv => h v (mem_references_of_reached hv)
  refine ⟨hjudge, fun quiet => ?_⟩
  rw [judgeOpen, judgeOpen, hjudge]

theorem DistinctIds.agrees_eq_false (h : DistinctIds ctx.questions) {p : Question}
    (hp : p ∈ ctx.questions) (hq : q ∈ ctx.questions) (hne : p ≠ q) : p.id.agrees q.id = false := by
  have hsymm : Std.Symm fun p q : Question => p.id.agrees q.id = false :=
    ⟨fun p q hpq => by rwa [Value.agrees_comm]⟩
  exact List.Pairwise.forall h hp hq hne

theorem question?_text (hp : ctx.question? (.text v) = some q) :
    q ∈ ctx.questions ∧ q.variableName = .text v := by
  refine ⟨List.mem_of_find?_eq_some hp, ?_⟩
  have hequal := List.find?_some hp
  exact (Value.equal_iff_of_isText rfl).1 hequal

/-- A variable with another meaning than the answer to a question keeps it when that answer
changes. -/
theorem resolve_of_sameBut (hids : DistinctIds ctx.questions) (hq : q ∈ ctx.questions)
    (hvariable : q.variableName ≠ .text v) (hid : q.id ≠ .text v)
    (h : ctx.responses.SameBut q.id responses) :
    { ctx with responses := responses }.resolve (.text v) = ctx.resolve (.text v) := by
  have hquestion : { ctx with responses := responses }.question? (.text v) =
    ctx.question? (.text v) := rfl
  rw [Context.resolve, Context.resolve, hquestion]
  cases hp : ctx.question? (.text v) with
  | some p =>
    obtain ⟨hmem, hname⟩ := question?_text hp
    have hne : p ≠ q := by
      rintro rfl
      exact hvariable hname
    dsimp only
    rw [h p.id (hids.agrees_eq_false hmem hq hne)]
  | none =>
    have hother : (Value.text v).agrees q.id = false := by
      rw [Bool.eq_false_iff]
      intro hagrees
      exact hid (Value.eq_of_agrees rfl hagrees).symm
    dsimp only
    rw [loose?, loose?, h (.text v) hother]

/-- The verdict on a condition, or why there is none, depends on nothing but what the variables mean
that the condition names: contexts in which each of them means the same or is unknown in both agree
on it. If the questions have distinct ids, that holds however the answer to a question changes whose
variable and id the condition does not name. -/
theorem verdict_of_references (hparse : parse text = .ok c) :
    (∀ ctx ctx' : Context, (∀ v ∈ c.references, ctx.MeansSame ctx' v) →
      ctx.SameVerdicts ctx' text) ∧
    ∀ (ctx : Context) (q : Question) (responses : Register Value), DistinctIds ctx.questions →
      q ∈ ctx.questions →
      (∀ v ∈ c.references, q.variableName ≠ .text v ∧ q.id ≠ .text v) →
      ctx.responses.SameBut q.id responses →
      ctx.SameVerdicts { ctx with responses := responses } text := by
  constructor
  · intro ctx ctx' h
    exact sameVerdicts_of_resolve hparse fun v hv => (h v hv).resolve
  · intro ctx q responses hids hq hnames hsame
    refine sameVerdicts_of_resolve hparse fun v hv => ?_
    exact resolve_of_sameBut hids hq (hnames v hv).1 (hnames v hv).2 hsame

/-- The variable AWARE means the answer to its question in one context and a datum in the other, and
NOPE is unknown in both. The answer to a question that is not named is given as well. -/
theorem verdict_of_references_brandTracker :
    let text := "!(equals(answer('AGE'), 30) && anySelected('AWARE', ['puma']) || isEmpty('NOPE'))"
    let aware : Value := .list [.text "nike"]
    let ctx : Context := ⟨.ofList [(.text "q_age", .int 30), (.text "q_aware", aware)], ∅,
      Sample.BrandTracker.questions⟩
    let ctx' : Context := ⟨.ofList [(.text "q_age", .int 30), (.text "q_rate", .int 9)],
      .ofList [(.text "AWARE", aware)], Sample.BrandTracker.questions.take 1⟩
    let rated := ctx.responses.set (.text "q_rate") (.int 9)
    (parse text).map references = .ok ["AGE", "AWARE", "NOPE"] ∧
      ctx.SameVerdicts ctx' text ∧ ctx.SameVerdicts { ctx with responses := rated } text := by
  intro text aware ctx ctx' rated
  have hreferences : (parse text).map references = .ok ["AGE", "AWARE", "NOPE"] := by
    decide +kernel
  cases hparse : parse text with
  | error e =>
    rw [hparse] at hreferences
    cases hreferences
  | ok c =>
    rw [hparse] at hreferences
    have hc : c.references = ["AGE", "AWARE", "NOPE"] := Except.ok.inj hreferences
    obtain ⟨hcontexts, hanswers⟩ := verdict_of_references hparse
    refine ⟨hreferences, hcontexts ctx ctx' ?_, ?_⟩
    · rw [hc]
      refine List.forall_mem_cons.2 ⟨.inl ⟨.int 30, rfl, rfl⟩,
        List.forall_mem_cons.2 ⟨.inl ⟨aware, rfl, rfl⟩, List.forall_mem_singleton.2 (.inr ?_)⟩⟩
      exact ⟨by decide +kernel, by decide +kernel⟩
    · have hids : DistinctIds ctx.questions := by
        unfold DistinctIds
        decide +kernel
      refine hanswers ctx (Sample.BrandTracker.plainQuestion "q_rate" "p_brand_rate" "RATE" .rating
        ("How would you rate " ++ Sample.BrandTracker.loopToken "label" ++ "?")) rated hids ?_ ?_
        (ctx.responses.sameBut_set _ _)
      · exact .tail _ (.tail _ (.head _))
      · rw [hc]
        decide +kernel

end Context

end Questionnaire
