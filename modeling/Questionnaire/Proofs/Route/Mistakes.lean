import Questionnaire.Proofs.Page.Mistakes
import Questionnaire.Route.Jump
import Questionnaire.Route.Navigator

/-!
# Navigation without mistakes

Navigation judges the conditions of pages, and jumps those of rules and terminations. In an
intelligible survey neither tells of a mistake in one (`Survey.Intelligible`).
-/

namespace Questionnaire

open Flow

theorem Planning.unmistaken_sourceEvents (b : Battery) (survey : Survey) :
    (logAll (sourceEvents b survey)).Unmistaken := by
  refine .logAll fun e he => ?_
  unfold sourceEvents at he
  split at he
  · cases he
  · split at he
    · cases List.mem_singleton.1 he
      rfl
    · split at he
      · cases he
      · cases List.mem_singleton.1 he
        rfl

theorem Planning.unmistaken_newPlan (b : Battery) (survey : Survey) (responses : Register Value) :
    (newPlan b survey responses).Unmistaken := by
  have hlimited : ∀ items : List LoopItem, Unmistaken (do
      let items := limited (← Flow.ofResult (limit? b)) items
      Flow.log (.planned b.id items.length)
      pure (some ⟨b.id, items, .int 0⟩ : Option LoopPlan)) :=
    fun items => .bind .ofResult fun _ => .bind (.log rfl) fun _ => .pure
  refine .bind (unmistaken_sourceEvents b survey) fun _ => .bind .ofResult fun _ => ?_
  exact .ite (.bind (.log rfl) fun _ => .pure) (.ite (.bind .drawn hlimited) (.bind .pure hlimited))

namespace RoleTable

theorem unmistaken_announceAll (survey : Survey) : ∀ (t : RoleTable) (l : List Battery),
    (announceAll survey t l).Unmistaken
  | _, [] => .pure
  | t, b :: r => by
    refine .bind .ofResult fun _ => .bind (.logAll fun e he => ?_) fun _ =>
      unmistaken_announceAll survey _ r
    unfold eventsOf at he
    split at he
    · cases he
    · cases List.mem_singleton.1 he
      rfl
    · cases List.mem_singleton.1 he
      rfl

theorem unmistaken_announce (survey : Survey) : (announce survey).Unmistaken :=
  .bind .demandComparable fun _ => unmistaken_announceAll survey _ _

end RoleTable

namespace Navigator

variable {nav : Navigator} {id : Id}

/-! ## Plans -/

theorem unmistaken_announce : nav.announce.Unmistaken :=
  .bind .demandComparable fun _ => .bind .demandKeys fun _ => RoleTable.unmistaken_announce _

theorem unmistaken_roleOf : (nav.roleOf id).Unmistaken := .bind .demandKeys fun _ => .pure

theorem unmistaken_planOf : (planOf id).Unmistaken :=
  .bind .demandKeys fun _ => .bind .session fun _ => .pure

theorem unmistaken_iterationOf : (nav.iterationOf id).Unmistaken := by
  refine .bind unmistaken_roleOf fun o => ?_
  split
  · exact .pure
  · refine .bind unmistaken_planOf fun o => ?_
    split
    · exact .pure
    · exact .ofResult

theorem unmistaken_skipStale (b : Battery) (p : LoopPlan) : (nav.skipStale b p).Unmistaken := by
  refine .bind .ofResult fun _ => .ite .pure <| .bind .session fun _ => ?_
  refine .bind (Planning.unmistaken_sourceEvents b _) fun _ => .bind .ofResult fun _ => ?_
  refine .bind .demandKeys fun _ => .bind (.logAll fun e he => ?_) fun _ =>
    .bind .update fun _ => ?_
  · obtain ⟨key, -, rfl⟩ := List.mem_map.1 he
    rfl
  · split
    · exact .pure
    · exact .throw

theorem unmistaken_enter (b : Battery) : (nav.enter b).Unmistaken := by
  refine .bind unmistaken_planOf fun o => ?_
  split
  · exact .bind .ofResult fun _ => .bind (unmistaken_skipStale b _) fun _ => .pure
  · exact .bind .session fun _ => .bind (Planning.unmistaken_newPlan b _ _) fun _ =>
      .bind .update fun _ => .pure

/-- Work at the end of a battery, and nothing elsewhere. -/
theorem unmistaken_atFinish {α : Type} {a : α} {k : Battery → LoopPlan → Flow α}
    (hk : ∀ b p, (k b p).Unmistaken) :
    Unmistaken (do
      match ← nav.roleOf id with
      | some (b, .finish) =>
        match ← planOf b.id with
        | none => pure a
        | some p => k b p
      | _ => pure a) := by
  refine .bind unmistaken_roleOf fun o => ?_
  split
  · refine .bind unmistaken_planOf fun o => ?_
    split
    · exact .pure
    · exact hk _ _
  · exact .pure

theorem unmistaken_continueLoop : (nav.continueLoop id).Unmistaken := by
  refine unmistaken_atFinish fun b p => .bind .ofResult fun _ => .ite .pure ?_
  refine .bind .ofResult fun _ => .bind .update fun _ => ?_
  refine .bind (unmistaken_skipStale b _) fun _ => .bind .ofResult fun _ => ?_
  exact .ite (.bind (.log rfl) fun _ => .pure) <|
    .bind (.log rfl) fun _ => .bind .ofResult fun _ => .pure

theorem unmistaken_closeIteration : (nav.closeIteration id).Unmistaken :=
  unmistaken_atFinish fun _ _ => .bind .ofResult fun _ =>
    .ite .pure <| .bind .update fun _ => .bind (.log rfl) fun _ => .pure

theorem unmistaken_continuesLoop : (nav.continuesLoop id).Unmistaken := by
  refine .bind unmistaken_roleOf fun o => ?_
  split
  · refine .bind unmistaken_planOf fun o => ?_
    split
    · exact .ofResult
    · exact .pure
  · exact .pure

theorem unmistaken_stepBack : (nav.stepBack id).Unmistaken := by
  refine .bind unmistaken_roleOf fun o => ?_
  split
  · refine .bind unmistaken_planOf fun o => ?_
    split
    · exact .pure
    · refine .bind .ofResult fun o => ?_
      split
      · exact .pure
      · exact .bind .update fun _ => .bind .ofResult fun _ => .pure
  · exact .pure

theorem unmistaken_resetAll : ∀ l : List Battery, (resetAll l).Unmistaken
  | [] => .pure
  | b :: r => by
    have hrest : (resetAll r).Unmistaken := unmistaken_resetAll r
    have hgo : ∀ s : Session, Unmistaken (if (s.plan? b.id).isSome then do
        Flow.update fun s => s.dropPlan b.id
        Flow.log (.batteryReset b.id)
        let rest ← resetAll r
        pure (b.id :: rest)
      else resetAll r) := by
      refine fun s => .ite (.bind .update fun _ => .bind (.log rfl) fun _ => ?_) hrest
      exact .bind hrest fun _ => .pure
    unfold resetAll
    exact .bind .session fun s => .ite (hgo s) (.bind .demandKeys fun _ => hgo s)

theorem unmistaken_progress : (progress id).Unmistaken := by
  refine .bind unmistaken_planOf fun o => ?_
  split
  · exact .pure
  · exact .ofResult

/-! ## The order of pages -/

/-- What is found in a list of pages is from the list. -/
theorem mem_of_aroundLast? {before after : List Page} {p : Page} : ∀ {l : List Page},
    aroundLast? id l = some (before, p, after) → p ∈ l
  | q :: r, h => by
    unfold aroundLast? at h
    split at h
    · next hr =>
      cases h
      exact .tail _ (mem_of_aroundLast? hr)
    · split at h
      · cases h
        exact .head _
      · cases h

theorem around_ensures_mem :
    Ensures (fun _ => True) (nav.around id) fun found _ => found.2.1 ∈ nav.pages := by
  refine .bind Keeps.demandKeys fun _ => ?_
  split
  · next hx => exact .pure fun _ _ => mem_of_aroundLast? hx
  · exact .throw

theorem unmistaken_around : (nav.around id).Unmistaken := by
  refine .bind .demandKeys fun _ => ?_
  split
  · exact .pure
  · exact .throw

section
variable (h : nav.survey.Intelligible) (hpages : nav.pages ⊆ nav.survey.pages)
include h hpages

theorem unmistaken_isShown : (nav.isShown id).Unmistaken := by
  refine .ite .pure <| .bind_ensures unmistaken_around around_ensures_mem ?_
  rintro ⟨_, page, _⟩ hpage
  exact .bind .session fun s => s.unmistaken_shows (fun c hc => h c (.page (hpages hpage) hc)) _

theorem unmistaken_firstShown : ∀ l : List Page, (nav.firstShown l).Unmistaken
  | [] => .pure
  | _ :: r => .bind (unmistaken_isShown h hpages) fun _ => .ite .pure (unmistaken_firstShown r)

theorem unmistaken_nextInOrder : (nav.nextInOrder id).Unmistaken :=
  .bind unmistaken_around fun _ => unmistaken_firstShown h hpages _

theorem unmistaken_previousInOrder : (nav.previousInOrder id).Unmistaken :=
  .bind unmistaken_around fun _ => unmistaken_firstShown h hpages _

/-! ## Moving -/

theorem unmistaken_arriveWithin :
    ∀ (fuel : Nat) (page : Option Id), (nav.arriveWithin fuel page).Unmistaken
  | 0, none | _ + 1, none => .pure
  | 0, some _ => .throw
  | fuel + 1, some page => by
    refine .bind unmistaken_roleOf fun o => ?_
    split
    · refine .bind (unmistaken_enter _) fun _ => .bind .ofResult fun _ => ?_
      refine .ite (.bind .ofResult fun _ => .pure) <| .bind (.log rfl) fun _ => ?_
      exact .bind (unmistaken_nextInOrder h hpages) fun _ => unmistaken_arriveWithin fuel _
    · exact .bind unmistaken_iterationOf fun _ => .pure

theorem unmistaken_arrive (page : Option Id) : (nav.arrive page).Unmistaken :=
  unmistaken_arriveWithin h hpages _ page

theorem unmistaken_firstPage : nav.firstPage.Unmistaken := by
  unfold firstPage
  split
  · exact .pure
  · exact .bind (unmistaken_isShown h hpages) fun _ => .ite (unmistaken_arrive h hpages _) <|
      .bind (unmistaken_nextInOrder h hpages) fun _ => unmistaken_arrive h hpages _

theorem unmistaken_nextPage : (nav.nextPage id).Unmistaken := by
  refine .bind unmistaken_around fun _ => .bind unmistaken_continueLoop fun o => ?_
  split
  · exact .pure
  · exact .bind (unmistaken_nextInOrder h hpages) fun _ => unmistaken_arrive h hpages _

theorem unmistaken_arriveBackWithin :
    ∀ (fuel : Nat) (page : Option Id), (nav.arriveBackWithin fuel page).Unmistaken
  | 0, none | _ + 1, none => .pure
  | 0, some _ => .throw
  | fuel + 1, some page => by
    have hback : ∀ id, Unmistaken (nav.previousInOrder id >>= nav.arriveBackWithin fuel) :=
      fun id => .bind (unmistaken_previousInOrder h hpages) fun _ =>
        unmistaken_arriveBackWithin fuel _
    refine .bind unmistaken_roleOf fun o => ?_
    split
    · exact .pure
    · refine .bind unmistaken_planOf fun o => ?_
      split
      · exact .ite (hback _) (.bind .ofResult fun _ => .pure)
      · exact hback _

theorem unmistaken_previousPage : (nav.previousPage id).Unmistaken := by
  refine .bind unmistaken_around fun _ => .bind unmistaken_stepBack fun o => ?_
  split
  · exact .pure
  · exact .bind (unmistaken_previousInOrder h hpages) fun _ =>
      unmistaken_arriveBackWithin h hpages _ _

end

end Navigator

/-! ## Jumps -/

namespace Jump

variable {survey : Survey} {quiet : Bool}

/-- A condition that is understood is a text that fires or not without a mistake. -/
theorem exists_textOf {c : Criterion} (h : survey.Understands c) :
    ∃ text, textOf c = pure text ∧ ∀ (s : Session) (quiet : Bool) (owner : String),
      (fires (s.context survey) quiet owner text).Unmistaken := by
  obtain ⟨text, htext, hjudge⟩ := h
  refine ⟨text, by rw [textOf, htext], fun s quiet owner => ?_⟩
  refine .ite .pure ?_
  split
  · exact .pure
  · next why hwhy => exact .ite (.bind (.log (hjudge _ _ why hwhy)) fun _ => .pure) .throw

theorem unmistaken_ruleHolds {rule : JumpRule}
    (h : ∀ c, rule.condition = some c → survey.Understands c) :
    (ruleHolds survey quiet rule).Unmistaken := by
  unfold ruleHolds
  split
  · exact .pure
  · next c hc =>
    obtain ⟨text, htext, hfires⟩ := exists_textOf (h c hc)
    rw [htext, pure_bind]
    exact .ite .pure <| .bind .session fun s => hfires s _ _

theorem unmistaken_outcome? (rule : JumpRule) : (outcome? survey quiet rule).Unmistaken := by
  refine .ite .pure ?_
  split
  · exact .pure
  · exact .bind (.log rfl) fun _ => .pure

theorem unmistaken_firstOf : ∀ {rules : List JumpRule},
    (∀ rule ∈ rules, ∀ c, rule.condition = some c → survey.Understands c) →
      (firstOf survey quiet rules).Unmistaken
  | [], _ => .pure
  | rule :: r, h => by
    have hrest : (firstOf survey quiet r).Unmistaken :=
      unmistaken_firstOf fun rule hrule => h rule (.tail _ hrule)
    refine .bind (unmistaken_ruleHolds (h rule (.head _))) fun _ => .ite ?_ hrest
    refine .bind (unmistaken_outcome? rule) fun o => ?_
    split
    · exact .pure
    · exact hrest

variable (h : survey.Intelligible)
include h

theorem unmistaken_first {rules : List JumpRule}
    (hrules : rules ⊆ survey.jumpRules ++ survey.pageJumpRules) :
    (first survey quiet rules).Unmistaken :=
  .bind .demandComparable fun _ => unmistaken_firstOf fun _ hrule c hc =>
    h c (.rule (hrules ((sortedBy_perm _ _).mem_iff.1 hrule)) hc)

theorem unmistaken_ofPage (pageId : Id) : (ofPage survey quiet pageId).Unmistaken :=
  unmistaken_first h fun _ hrule => List.mem_append_right _ (List.mem_filter.1 hrule).1

theorem unmistaken_termination (questionId : Id) :
    (termination survey quiet questionId).Unmistaken := by
  unfold termination
  split
  · exact .pure
  · next c hc =>
    obtain ⟨q, hq, hqc⟩ := Option.bind_eq_some_iff.1 hc
    obtain ⟨text, htext, hfires⟩ :=
      exists_textOf (h c (.termination (List.mem_of_find?_eq_some hq) hqc))
    refine .bind .session fun s => ?_
    rw [htext, pure_bind]
    exact .bind (hfires s _ _) fun _ => .ite (.bind (.log rfl) fun _ => .pure) .pure

theorem unmistaken_ofAnswer (questionId : Id) : (ofAnswer survey quiet questionId).Unmistaken := by
  refine .bind (unmistaken_termination h questionId) fun o => ?_
  split
  · exact .pure
  · exact unmistaken_first h fun _ hrule => List.mem_append_left _ (List.mem_filter.1 hrule).1

end Jump

end Questionnaire
