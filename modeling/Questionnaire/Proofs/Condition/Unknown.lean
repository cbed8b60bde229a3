import Mathlib.Data.List.Basic
import Questionnaire.Proofs.Flow
import Questionnaire.Route.Jump
import Questionnaire.Sample.BrandTracker

/-!
# Conditions on unknown variables

Parts of a joined condition are judged in order, and the first one that decides ends the judging.
So judging reaches some of the variables that a condition names and never looks up the others
(`Condition.reached`). What is known of the reached variables determines the verdict
(`Condition.judge_congr`).

An unknown variable that is reached leaves the condition without a verdict: what it guards is shown,
and no jump fires on it. An unknown variable that is not reached goes unnoticed: the verdict is the
one that every meaning of the variable leads to (`Context.judge_with_unknown`). It is a verdict
nevertheless, and may hide something or fire a jump (`Context.unknown_goes_unnoticed`).
-/

namespace Questionnaire

open Flow

/-- The verdict on a part of a joined condition that leaves the verdict on the whole open. -/
def Connective.neutral : Connective → Bool
  | .and => true
  | .or => false

namespace Condition

/-! ## Reached variables -/

mutual

/-- The variables that judging a condition looks up, in order. -/
def reached (ctx : Context) : Condition → List String
  | .comparison _ v _ => [v]
  | .selection _ v _ => [v]
  | .emptiness _ v => [v]
  | .joined k parts => reachedIn ctx k parts
  | .negated c => reached ctx c

/-- The variables that judging joined conditions looks up: the first part that decides is the
last one judged. -/
def reachedIn (ctx : Context) (k : Connective) : List Condition → List String
  | [] => []
  | c :: r =>
    reached ctx c ++
      match c.judge ctx with
      | .ok verdict => if verdict = k.neutral then reachedIn ctx k r else []
      | .error _ => []

end

variable {ctx : Context} {v : String}

/-- A joined condition is judged part by part, as long as the verdicts leave the whole open. -/
theorem judge_joined_cons (ctx : Context) (k : Connective) (c : Condition) (r : List Condition) :
    (joined k (c :: r)).judge ctx = match c.judge ctx with
      | .ok verdict => if verdict = k.neutral then (joined k r).judge ctx else .ok verdict
      | .error e => .error e := by
  cases k with
  | and =>
    simp only [judge, judgeAll]
    rcases c.judge ctx with e | _ | _ <;> rfl
  | or =>
    simp only [judge, judgeAny]
    rcases c.judge ctx with e | _ | _ <;> rfl

/-- Only what a condition names is reached. -/
theorem mem_references_of_reached : ∀ {c : Condition}, v ∈ c.reached ctx → v ∈ c.references
  | .comparison _ _ _, h | .selection _ _ _, h | .emptiness _ _, h => h
  | .negated c, h => mem_references_of_reached (c := c) h
  | .joined k parts, h => parts_mem k parts h
where
  parts_mem (k : Connective) : ∀ (parts : List Condition), v ∈ reachedIn ctx k parts →
      v ∈ referencesOf parts
    | c :: r, h => by
      rw [reachedIn, List.mem_append] at h
      rw [referencesOf, List.mem_append]
      refine h.imp mem_references_of_reached fun hr => ?_
      split at hr
      · split at hr
        · exact parts_mem k r hr
        · cases hr
      · cases hr

/-- A failure to look up a variable that is reached is a failure of the condition. -/
theorem judge_eq_error {e : Failure} (hv : ctx.resolve (.text v) = .error e) :
    ∀ {c : Condition}, v ∈ c.reached ctx → c.judge ctx = .error e
  | .comparison _ _ _, h | .selection _ _ _, h | .emptiness _ _, h => by
    rw [judge, ← List.mem_singleton.1 h, hv]
    rfl
  | .negated c, h => by
    rw [judge, judge_eq_error hv (c := c) h]
    rfl
  | .joined k parts, h => parts_error k parts h
where
  parts_error (k : Connective) : ∀ (parts : List Condition), v ∈ reachedIn ctx k parts →
      (joined k parts).judge ctx = .error e
    | c :: r, h => by
      rw [reachedIn, List.mem_append] at h
      rw [judge_joined_cons]
      rcases h with h | h
      · rw [judge_eq_error hv h]
      · split at h
        · next verdict hverdict =>
          split at h
          · next hneutral =>
            rw [if_pos hneutral]
            exact parts_error k r h
          · cases h
        · cases h

/-- The verdict depends on nothing but the variables that are reached. -/
theorem judge_congr {ctx' : Context} : ∀ {c : Condition},
    (∀ v ∈ c.reached ctx, ctx'.resolve (.text v) = ctx.resolve (.text v)) →
      c.judge ctx' = c.judge ctx
  | .comparison _ v _, h | .selection _ v _, h | .emptiness _ v, h => by
    rw [judge, judge, h v (.head _)]
  | .negated c, h => by rw [judge, judge, judge_congr (c := c) h]
  | .joined k parts, h => parts_congr k parts h
where
  parts_congr (k : Connective) : ∀ (parts : List Condition),
      (∀ v ∈ reachedIn ctx k parts, ctx'.resolve (.text v) = ctx.resolve (.text v)) →
      (joined k parts).judge ctx' = (joined k parts).judge ctx
    | [], _ => by cases k <;> rfl
    | c :: r, h => by
      rw [reachedIn] at h
      have hc : c.judge ctx' = c.judge ctx :=
        judge_congr fun v hv => h v (List.mem_append_left _ hv)
      rw [judge_joined_cons, judge_joined_cons, hc]
      -- The rest is reached exactly if the verdict on the first part leaves the whole open.
      rcases hverdict : c.judge ctx with e | verdict
      · rfl
      · dsimp only
        split
        · next hneutral =>
          refine parts_congr k r fun v hv => h v (List.mem_append_right _ ?_)
          rw [hverdict]
          dsimp only
          rwa [if_pos hneutral]
        · rfl

end Condition

namespace Context

open Condition

/-! ## Unknown variables -/

/-- A variable that no question has and that is found neither among the answers nor among the
embedded data. -/
def Unknown (ctx : Context) (v : String) : Prop :=
  ctx.question? (.text v) = none ∧ ctx.loose? (.text v) = none

instance (ctx : Context) (v : String) : Decidable (ctx.Unknown v) :=
  inferInstanceAs (Decidable (_ ∧ _))

variable {ctx : Context} {text : String} {c : Condition} {v : String}

theorem Unknown.resolve (h : ctx.Unknown v) :
    ctx.resolve (.text v) = .error (.unknownReference (.text v)) := by
  rw [Context.resolve, h.1, h.2]
  rfl

/-- Another context in which everything that is known means the same; what is unknown may mean
anything. -/
def KnownIn (ctx ctx' : Context) : Prop :=
  ∀ v, ¬ctx.Unknown v → ctx'.resolve (.text v) = ctx.resolve (.text v)

/-- A text that decides nothing as a condition: what it guards is shown, and no rule and no
termination fires on it. -/
structure Abstains (ctx : Context) (text : String) : Prop where
  shown : ∀ quiet, (ctx.judgeOpen quiet text).1 = .ok true
  rule : ∀ {survey : Survey} {rule : JumpRule} {criterion : Criterion} {d : Desk} (quiet : Bool),
    d.session.context survey = ctx → rule.condition = some criterion →
    criterion.text = .text text → ((Jump.ruleHolds survey quiet rule).perform d).1 = .ok false
  termination : ∀ {survey : Survey} {id : Id} {q : Question} {criterion : Criterion} {d : Desk}
    (quiet : Bool), d.session.context survey = ctx → survey.question? id = some q →
    q.terminateIf = some criterion → criterion.text = .text text →
    ((Jump.termination survey quiet id).perform d).1 = .ok none

theorem isAllBlank_of_parse (h : parse text = .ok c) : Text.isAllBlank text = false := by
  unfold parse at h
  split at h
  · cases h
  · next hblank => exact Bool.eq_false_iff.2 hblank

/-- A condition that fails by its author's mistake does not fire. -/
theorem reads_fires {e : Failure} (hblank : Text.isAllBlank text = false)
    (h : ctx.judge text = .error e) (he : e.isAuthoring = true) (quiet : Bool) (owner : String) :
    (Jump.fires ctx quiet owner text).Reads fun _ => .ok false := by
  unfold Jump.fires
  rw [hblank, h]
  dsimp only
  rw [he]
  exact (Reads.log _).bind fun _ => .pure false

/-- A condition that fails by its author's mistake decides nothing. -/
theorem abstains_of_error {e : Failure} (hblank : Text.isAllBlank text = false)
    (h : ctx.judge text = .error e) (he : e.isAuthoring = true) : ctx.Abstains text where
  shown := by
    intro quiet
    rw [judgeOpen, hblank, h]
    dsimp only
    rw [he]
    rfl
  rule := by
    intro survey rule criterion d quiet hd hrule htext
    have hfires := reads_fires hblank h he quiet ("Jump rule " ++ rule.id.display)
    rw [Jump.ruleHolds, hrule]
    dsimp only [Jump.textOf]
    rw [htext, perform_bind, perform_pure]
    dsimp only
    rw [hblank]
    simp only [Bool.false_eq_true, if_false, perform_bind, perform_session, hd]
    exact (hfires d).1
  termination := by
    intro survey id q criterion d quiet hd hq hcriterion htext
    obtain ⟨hfires, -⟩ := reads_fires hblank h he quiet ("Termination " ++ criterion.id.display) d
    have hbind : (survey.question? id).bind Question.terminateIf = some criterion := by
      rw [hq]
      exact hcriterion
    rw [Jump.termination, hbind]
    dsimp only [Jump.textOf]
    rw [htext]
    simp only [perform_bind, perform_session, perform_pure, hd]
    rcases hperform : (Jump.fires ctx quiet ("Termination " ++ criterion.id.display) text).perform
      d with ⟨verdict, d'⟩
    rw [hperform] at hfires
    cases hfires
    rfl

/-- An unknown variable that judging reaches makes the text decide nothing. If none is reached, the
verdict is the one that every meaning of the unknown variables leads to. -/
theorem judge_with_unknown (hparse : parse text = .ok c) :
    ((∃ v ∈ c.reached ctx, ctx.Unknown v) → ctx.Abstains text) ∧
    ((∀ v ∈ c.reached ctx, ¬ctx.Unknown v) →
      ∀ ctx', ctx.KnownIn ctx' → ctx'.judge text = ctx.judge text) := by
  constructor
  · rintro ⟨v, hreached, hunknown⟩
    refine abstains_of_error (isAllBlank_of_parse hparse) (e := .unknownReference (.text v)) ?_ rfl
    rw [judge, hparse]
    exact judge_eq_error hunknown.resolve hreached
  · intro hknown ctx' hctx'
    rw [judge, judge, hparse]
    exact judge_congr fun v hv => hctx' v (hknown v hv)

/-- The second part of a conjunction is unknown, and nothing is hidden by it. -/
theorem judge_with_unknown_brandTracker :
    let ctx : Context := ⟨∅, ∅, Sample.BrandTracker.questions⟩
    let text := "isEmpty('AGE') && equals('NOPE', 'x')"
    (parse text).map (reached ctx) = .ok ["AGE", "NOPE"] ∧ ctx.Unknown "NOPE" ∧
      ctx.Abstains text := by
  intro ctx text
  have hunknown : ctx.Unknown "NOPE" := by decide +kernel
  have hreached : (parse text).map (reached ctx) = .ok ["AGE", "NOPE"] := by decide +kernel
  refine ⟨hreached, hunknown, ?_⟩
  cases hparse : parse text with
  | error e =>
    rw [hparse] at hreached
    cases hreached
  | ok c =>
    rw [hparse] at hreached
    have hc : c.reached ctx = ["AGE", "NOPE"] := Except.ok.inj hreached
    exact (judge_with_unknown hparse).1 ⟨"NOPE", by simp [hc], hunknown⟩

/-- An unknown variable behind the part that decides goes unnoticed: a conjunction hides, and a
disjunction fires, although both name a variable that nothing is known of. -/
theorem unknown_goes_unnoticed :
    let ctx : Context := ⟨∅, ∅, Sample.BrandTracker.questions⟩
    let closing := "equals('AGE', 30) && equals('NOPE', 'x')"
    let firing := "isEmpty('AGE') || equals('NOPE', 'x')"
    ctx.Unknown "NOPE" ∧
    (parse closing).map references = .ok ["AGE", "NOPE"] ∧
    (ctx.judgeOpen false closing).1 = .ok false ∧
    (parse firing).map references = .ok ["AGE", "NOPE"] ∧
    (∀ d, ((Jump.fires ctx false "" firing).perform d).1 = .ok true) := by
  intro ctx closing firing
  have hfires : ctx.judge firing = .ok true := by
    have hverdict : (ctx.judge firing).toOption = some true := by decide +kernel
    cases h : ctx.judge firing with
    | error e =>
      rw [h] at hverdict
      cases hverdict
    | ok b =>
      rw [h] at hverdict
      exact congrArg _ (Option.some.inj hverdict)
  refine ⟨by decide +kernel, by decide +kernel, by decide +kernel, by decide +kernel, fun d => ?_⟩
  have hblank : Text.isAllBlank firing = false := by decide +kernel
  rw [Jump.fires, hblank, hfires]
  rfl

end Context

end Questionnaire
