import Questionnaire.Proofs.Flow
import Questionnaire.Proofs.Sorted
import Questionnaire.Route.Jump

/-!
# Which rules fire

Looking for a jump only reads the session. Whether a condition holds for certain is a matter of its
text, the answers and the embedded data (`Jump.strictVerdict`), and where a rule leads is a matter
of the survey (`Jump.leadsTo?`). So of the rules in a list the first one counts that holds and leads
somewhere, if there is a verdict on each (`Jump.reads_ruleHolds`, `Jump.firstOf_yields`).
-/

namespace Questionnaire

open Flow

namespace Jump

variable {survey : Survey} {quiet : Bool}

/-! ## Verdicts -/

/-- The strict verdict on the text of a condition: what fails by a mistake of its author does not
hold. A blank one counts as `blank`. -/
def strictVerdictOn (ctx : Context) (blank : Bool) (text : String) : Except Fault Bool :=
  if Text.isAllBlank text then .ok blank
  else
    match ctx.judge text with
    | .ok b => .ok b
    | .error e => if e.isAuthoring then .ok false else .error e.fault

/-- The text of a condition, which must be one. -/
def authoredText (c : Criterion) : Except Fault String :=
  match c.text with
  | .text text => .ok text
  | _ => .error .conditionNotText

/-- The strict verdict on a condition. -/
def strictVerdict (ctx : Context) (blank : Bool) (c : Criterion) : Except Fault Bool :=
  (authoredText c).bind (strictVerdictOn ctx blank)

/-- The verdict on a rule. A rule without a condition holds, and so does one with a blank one. -/
def ruleVerdict (ctx : Context) (rule : JumpRule) : Except Fault Bool :=
  match rule.condition with
  | none => .ok true
  | some c => strictVerdict ctx true c

/-- Where a rule leads: to the end or to a page, if its destination exists. -/
def leadsTo? (survey : Survey) (rule : JumpRule) : Option JumpOutcome :=
  if rule.destination.isEnd then some ⟨rule.id, rule.destination, none, none⟩
  else (survey.destinationPage? rule.destination).map fun page =>
    ⟨rule.id, rule.destination, some page, none⟩

/-- What comes of a rule: where it leads, if it holds. -/
def ruleResult (survey : Survey) (ctx : Context) (rule : JumpRule) :
    Except Fault (Option JumpOutcome) :=
  (ruleVerdict ctx rule).map fun holds => if holds then leadsTo? survey rule else none

/-- What comes of a termination. A blank one never ends the survey. -/
def terminationResult (ctx : Context) (c : Criterion) : Except Fault (Option JumpOutcome) :=
  (strictVerdict ctx false c).map fun holds =>
    if holds then some ⟨c.id, Destination.atEnd, none, some (reasonOf c)⟩ else none

/-! ## Reading -/

theorem reads_fires (ctx : Context) (owner text : String) :
    (fires ctx quiet owner text).Reads fun _ => strictVerdictOn ctx false text := by
  unfold fires strictVerdictOn
  refine .ite (.pure false) ?_
  cases ctx.judge text with
  | ok b => exact .pure b
  | error e => exact .ite ((Reads.log _).bind fun _ => .pure false) (.ofResult (.error e.fault))

theorem reads_textOf (c : Criterion) : (textOf c).Reads fun _ => authoredText c := by
  unfold textOf authoredText
  cases c.text <;> first | exact .pure _ | exact .ofResult (.error .conditionNotText)

theorem reads_ruleHolds (rule : JumpRule) :
    (ruleHolds survey quiet rule).Reads fun s => ruleVerdict (s.context survey) rule := by
  unfold ruleHolds ruleVerdict
  cases rule.condition with
  | none => exact .pure true
  | some c =>
    refine ((reads_textOf c).bind fun text => .ite (.pure true)
      (Reads.session.bind fun s => reads_fires (s.context survey) _ text)).congr fun s => ?_
    show _ = (authoredText c).bind (strictVerdictOn (s.context survey) true)
    cases authoredText c with
    | error e => rfl
    | ok text =>
      simp only [Except.bind]
      cases hblank : Text.isAllBlank text <;> simp [strictVerdictOn, hblank]

theorem reads_outcome? (rule : JumpRule) :
    (outcome? survey quiet rule).Reads fun _ => .ok (leadsTo? survey rule) := by
  unfold outcome? leadsTo?
  cases rule.destination.isEnd with
  | true => exact .pure _
  | false =>
    simp only [Bool.false_eq_true, if_false]
    cases survey.destinationPage? rule.destination with
    | some page => exact .pure _
    | none => exact (Reads.log _).bind fun _ => .pure none

theorem reads_termination {questionId : Id} {q : Question}
    (hq : survey.question? questionId = some q) :
    (termination survey quiet questionId).Reads fun s =>
      match q.terminateIf with
      | none => .ok none
      | some c => terminationResult (s.context survey) c := by
  unfold termination
  rw [hq, Option.bind_some]
  cases q.terminateIf with
  | none => exact .pure none
  | some c =>
    refine (Reads.session.bind fun s => (reads_textOf c).bind fun text =>
      (reads_fires (s.context survey) _ text).bind fun _ => .ite
        ((Reads.log _).bind fun _ => .pure _) (.pure none)).congr fun s => ?_
    show _ = ((authoredText c).bind (strictVerdictOn (s.context survey) false)).map _
    cases authoredText c with
    | error e => rfl
    | ok text =>
      simp only [Except.bind]
      cases strictVerdictOn (s.context survey) false text with
      | error e => rfl
      | ok holds => cases holds <;> rfl

/-! ## Looking for a jump -/

/-- What came of a rule or a termination, if there was no fault. -/
def fired (result : Except Fault (Option JumpOutcome)) : Option JumpOutcome :=
  result.toOption.join

/-- A result that is no fault is what is found. -/
theorem fired_eq_some_iff {result : Except Fault (Option JumpOutcome)} {x : JumpOutcome} :
    fired result = some x ↔ result = .ok (some x) := by
  rcases result with e | _ | y <;> simp [fired, Except.toOption]

variable {s : Session}

theorem termination_yields {q : Question} (hq : survey.question? q.id = some q)
    (h : ∀ c, q.terminateIf = some c → ∃ o, terminationResult (s.context survey) c = .ok o) :
    Yields (· = s) (termination survey quiet q.id) fun o t => t = s ∧
      o = q.terminateIf.bind fun c => fired (terminationResult (s.context survey) c) := by
  refine .of_reads_known (reads_termination hq) ?_
  rintro _ rfl
  cases hc : q.terminateIf with
  | none => rfl
  | some c =>
    obtain ⟨o, ho⟩ := h c hc
    rw [Option.bind_some, ho]
    exact ho

/-- Of the rules in a list the first one counts that fires. -/
theorem firstOf_yields : ∀ {rules : List JumpRule},
    (∀ r ∈ rules, ∃ o, ruleResult survey (s.context survey) r = .ok o) →
      Yields (· = s) (firstOf survey quiet rules) fun o t => t = s ∧
        o = rules.findSome? fun r => fired (ruleResult survey (s.context survey) r)
  | [], _ => .pure fun _ ht => ⟨ht, rfl⟩
  | r :: rules, h => by
    obtain ⟨o, ho⟩ := h r (.head _)
    have hrest := firstOf_yields fun r hr => h r (.tail _ hr)
    rw [List.findSome?_cons]
    unfold ruleResult at ho
    cases hverdict : ruleVerdict (s.context survey) r with
    | error e => rw [hverdict] at ho; cases ho
    | ok holds =>
      refine .bind_known (v := holds) (.of_reads_known (reads_ruleHolds r) ?_) ?_
      · rintro _ rfl
        exact hverdict
      have hresult : ruleResult survey (s.context survey) r =
          .ok (if holds then leadsTo? survey r else none) := by rw [ruleResult, hverdict]; rfl
      rw [hresult]
      cases holds with
      | false => exact hrest
      | true =>
        refine .bind_known (.of_reads_known (reads_outcome? r) fun _ _ => rfl) ?_
        cases leadsTo? survey r with
        | some x => exact .pure fun _ ht => ⟨ht, rfl⟩
        | none => exact hrest

/-- Numbers can be put in an order. -/
theorem demandComparable_of_isSized {l : List Value} (h : ∀ v ∈ l, v.isSized = true) :
    demandComparable l = .ok () := by
  have hnumeric : l.all Value.isNumeric = true := List.all_eq_true.2 fun v hv => by
    have hsized := h v hv
    cases v <;> first | rfl | cases hsized
  simp [demandComparable, Value.areComparable, hnumeric]

/-- Rules whose priorities are numbers are tried in the order of these. -/
theorem first_yields {rules : List JumpRule} (hnumbers : ∀ r ∈ rules, r.priority.isSized = true)
    (h : ∀ r ∈ rules, ∃ o, ruleResult survey (s.context survey) r = .ok o) :
    Yields (· = s) (first survey quiet rules) fun o t => t = s ∧
      o = (sortedBy JumpRule.priority rules).findSome? fun r =>
        fired (ruleResult survey (s.context survey) r) := by
  have hcomparable : demandComparable (rules.map JumpRule.priority) = .ok () :=
    demandComparable_of_isSized (List.forall_mem_map.2 hnumbers)
  refine .bind_known (v := ()) (.ofOk hcomparable) (firstOf_yields fun r hr => ?_)
  exact h r ((sortedBy_perm _ _).mem_iff.1 hr)

end Jump

end Questionnaire
