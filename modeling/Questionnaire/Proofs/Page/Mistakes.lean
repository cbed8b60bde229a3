import Questionnaire.Proofs.Log
import Questionnaire.Proofs.Page.Portrait
import Questionnaire.Proofs.Survey.Conditions

/-!
# Rendering without mistakes

A survey is intelligible if it understands all conditions that something depends on
(`Survey.Intelligible`). Every condition that rendering judges is one of these: it belongs to a
part of the survey, or to a choice that is carried into a question. So rendering a page of an
intelligible survey tells of no mistake in a condition (`Renderer.unmistaken_page`).
-/

namespace Questionnaire

open Flow

/-- Whether an event tells of a mistake in a condition. -/
def Event.tellsMistake : Event → Bool
  | .conditionFailedOpen _ _ why | .conditionDidNotFire _ _ _ why => why.isMistake
  | _ => false

/-- Work that tells of no mistake in a condition. -/
def Flow.Unmistaken {α : Type} (f : Flow α) : Prop := f.Logs fun e => e.tellsMistake = false

/-- A survey that understands all conditions that something depends on. -/
def Survey.Intelligible (survey : Survey) : Prop :=
  ∀ c, survey.DependsOn c → survey.Understands c

/-! ## Conditions -/

/-- Judging openly what is understood tells of no mistake. -/
theorem Session.unmistaken_shows {survey : Survey} {criterion : Option Criterion}
    (h : ∀ c, criterion = some c → survey.Understands c) (s : Session) (quiet : Bool) :
    ((s.context survey).shows quiet criterion).Unmistaken := by
  refine .bind (.logAll fun e he => ?_) fun _ => .ofResult
  cases criterion with
  | none => cases he
  | some c =>
    obtain ⟨text, htext, hjudge⟩ := h c rfl
    have he : e ∈ ((s.context survey).judgeOpenAuthored quiet c.text).2 := he
    rw [htext, Context.judgeOpenAuthored, Context.judgeOpen] at he
    split at he
    · cases he
    · split at he
      · cases List.mem_singleton.1 he
        rfl
      · next why hwhy =>
        split at he
        · cases List.mem_singleton.1 he
          exact hjudge _ _ why hwhy
        · cases he

/-! ## What rendering makes use of -/

theorem Order.unmistaken_arrange (weighting : Weighting) (scope owner : String) (mode : OrderMode)
    (items : List Sortable) : (arrange weighting scope owner mode items).Unmistaken := by
  refine .ite .pure <| .bind .session fun s => ?_
  split
  · exact .bind .drawn fun _ => .bind .ofResult fun _ => .bind .update fun _ => .pure
  · exact .bind (.log rfl) fun _ => .bind .demandKeys fun _ => .bind .update fun _ => .pure

theorem Carried.unmistaken_choicesOf (q : Question) (survey : Survey) :
    (choicesOf q survey).Unmistaken := by
  refine .bind .session fun s => .bind .demandComparable fun _ => .bind .ofResult fun _ =>
    .bind (.logAll fun e he => ?_) fun _ => .pure
  have he : e ∈ (carriedChoices q survey s.responses).2 := he
  unfold carriedChoices at he
  split at he
  · cases he
  · split at he
    · cases List.mem_singleton.1 he
      rfl
    · cases he

/-- The choices of a question are its own and the carried ones. -/
theorem Carried.choicesOf_ensures (q : Question) (survey : Survey) :
    Ensures (fun _ => True) (choicesOf q survey) fun choices _ =>
      ∃ responses, choices = (allChoices q survey responses).1 :=
  .bind Keeps.session fun s => .bind Keeps.demandComparable fun _ => .bind Keeps.ofResult fun _ =>
    .bind Keeps.logAll fun _ => .pure fun _ _ => ⟨s.responses, rfl⟩

namespace Renderer

variable {α : Type} {test : α → Flow Bool}

theorem unmistaken_keep : ∀ {l : List α}, (∀ a ∈ l, (test a).Unmistaken) →
    (keep test l).Unmistaken
  | [], _ => .pure
  | a :: _, h => .bind (h a (.head _)) fun _ =>
      .bind (unmistaken_keep fun c hc => h c (.tail _ hc)) fun _ => .pure

/-! ## The parts of a page -/

variable {r : Renderer}

theorem unmistaken_shows {criterion : Option Criterion}
    (h : ∀ c, criterion = some c → r.survey.Understands c) : (r.shows criterion).Unmistaken :=
  .bind .session fun s => s.unmistaken_shows h r.quiet

theorem unmistaken_wording (text : Value) : (r.wording text).Unmistaken :=
  .bind .session fun _ => .ofResult

theorem unmistaken_choice (c : Choice) : (r.choice c).Unmistaken :=
  .bind (unmistaken_wording c.label) fun _ => .pure

variable (h : r.survey.Intelligible)
include h

/-- A choice is shown on its own condition and on that of its group. -/
theorem unmistaken_showsChoice {q : Question} (hq : q ∈ r.survey.questions)
    {responses : Register Value} {c : Choice}
    (hc : c ∈ (Carried.allChoices q r.survey responses).1) (s : Session) :
    ((s.context r.survey).showsChoice r.quiet c (some q)).Unmistaken := by
  refine .bind (s.unmistaken_shows (fun _ hv => h _ (.choice hq hc hv)) r.quiet) fun _ =>
    .ite ?_ .pure
  split
  · next g hg =>
    have hg : (c.groupKey.given?).bind q.choiceGroup? = some g := hg
    obtain ⟨key, -, hfound⟩ := Option.bind_eq_some_iff.1 hg
    exact s.unmistaken_shows
      (fun _ hv => h _ (.choiceGroup hq (List.mem_of_find?_eq_some hfound) hv)) r.quiet
  · exact .pure

theorem unmistaken_question {q : Question} (hq : q ∈ r.survey.questions) :
    (r.question q).Unmistaken := by
  refine .bind .session fun s => ?_
  refine .bind_ensures (Carried.unmistaken_choicesOf q r.survey) (Carried.choicesOf_ensures q _) ?_
  rintro _ ⟨responses, rfl⟩
  refine .bind (unmistaken_keep fun c hc => unmistaken_showsChoice h hq hc s) fun shown => ?_
  refine .bind (Order.unmistaken_arrange _ _ _ _ _) fun _ => .bind .demandKeys fun _ => ?_
  refine .bind (unmistaken_wording q.text) fun _ => ?_
  exact .bind (.mapM fun c _ => unmistaken_choice c) fun _ => .pure

theorem unmistaken_questions (owner : String) (mode : OrderMode) {qs : List Question}
    (hqs : qs ⊆ r.survey.questions) : (r.questions owner mode qs).Unmistaken := by
  refine .bind_ensures (unmistaken_keep fun q hq => unmistaken_shows fun c hc => ?_)
    Ensures.keep_sublist fun shown hshown => ?_
  · exact h c (.question (hqs hq) hc)
  refine .bind (Order.unmistaken_arrange _ _ _ _ _) fun _ => .bind .demandKeys fun _ => ?_
  exact .mapM fun q hq => unmistaken_question h (hqs (hshown.subset (mem_of_mem_pick hq)))

theorem unmistaken_group? {onPage : List Question} (hqs : onPage ⊆ r.survey.questions) {g : Group}
    (hg : g ∈ r.survey.groups) : (r.group? onPage g).Unmistaken := by
  refine .bind (unmistaken_shows fun c hc => h c (.group hg hc)) fun _ => .ite ?_ .pure
  refine .bind (unmistaken_wording g.title) fun _ => ?_
  exact .bind (unmistaken_questions h _ _ fun q hq => hqs (List.mem_filter.1 hq).1) fun _ => .pure

theorem unmistaken_groups (p : Page) : (r.groups p).Unmistaken := by
  have hqs : r.survey.questionsOnPage p.id ⊆ r.survey.questions := fun q hq =>
    (List.mem_filter.1 ((sortedBy_perm _ _).mem_iff.1 hq)).1
  have hgs : r.survey.groupsOnPage p.id ⊆ r.survey.groups := fun g hg =>
    (List.mem_filter.1 ((sortedBy_perm _ _).mem_iff.1 hg)).1
  refine .bind .demandComparable fun _ => .bind .demandComparable fun _ => ?_
  refine .bind (.mapM fun g hg => unmistaken_group? h hqs (hgs hg)) fun _ => ?_
  refine .bind .demandKeys fun _ => .ite .pure ?_
  exact .bind (unmistaken_questions h _ _ fun q hq => hqs (List.mem_filter.1 hq).1) fun _ => .pure

/-- Rendering a page tells of no mistake in a condition. -/
theorem unmistaken_page (pageId : Id) : (r.page pageId).Unmistaken := by
  unfold page
  split
  · exact .throw
  · next p hp =>
    have hp : p ∈ r.survey.pages := List.mem_of_find?_eq_some hp
    refine .bind (unmistaken_shows fun c hc => h c (.page hp hc)) fun _ => .ite ?_ ?_
    · refine .bind (unmistaken_groups h p) fun _ => ?_
      refine .bind (Order.unmistaken_arrange _ _ _ _ _) fun _ => ?_
      exact .bind (unmistaken_wording p.title) fun _ => .pure
    · exact .bind (unmistaken_wording p.title) fun _ => .pure

end Renderer

end Questionnaire
