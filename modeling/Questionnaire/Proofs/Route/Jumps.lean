import Questionnaire.Proofs.Flow
import Questionnaire.Proofs.Route.Segments
import Questionnaire.Route.Jump

/-!
# What jumps lead to

Looking for a jump changes nothing. What is found can be followed: a rule whose destination does not
exist is passed over, so the outcome leads to a page of the survey or to its end, and the
termination of a question has a reason even where the author gave none (`JumpOutcome.Sound`).
-/

namespace Questionnaire

open Flow

/-- An outcome that leads to a page of the survey, if to any page, and that has a reason if an
answer ended the survey. -/
structure JumpOutcome.Sound (survey : Survey) (o : JumpOutcome) : Prop where
  page : ∀ id, o.pageId = some id → id ∈ survey.pages.map Page.id
  reason : ∀ v, o.terminationReason = some v → v.isTruthy = true

namespace Jump

variable {P : Session → Prop} {survey : Survey} {quiet : Bool}

/-! ## Jumps change nothing -/

theorem keeps_fires (ctx : Context) (owner text : String) :
    Keeps P (fires ctx quiet owner text) := by
  refine .ite .pure ?_
  split
  · exact .pure
  · exact .ite (.bind .log fun _ => .pure) .throw

theorem keeps_textOf (c : Criterion) : Keeps P (textOf c) := by
  unfold textOf
  split
  · exact .pure
  · exact .throw

theorem keeps_ruleHolds (rule : JumpRule) : Keeps P (ruleHolds survey quiet rule) := by
  unfold ruleHolds
  split
  · exact .pure
  · exact .bind (keeps_textOf _) fun _ => .ite .pure <| .bind .session fun _ => keeps_fires _ _ _

theorem keeps_outcome? (rule : JumpRule) : Keeps P (outcome? survey quiet rule) := by
  refine .ite .pure ?_
  split
  · exact .pure
  · exact .bind .log fun _ => .pure

theorem keeps_firstOf : ∀ rules : List JumpRule, Keeps P (firstOf survey quiet rules)
  | [] => .pure
  | rule :: r => by
    refine .bind (keeps_ruleHolds rule) fun _ => .ite ?_ (keeps_firstOf r)
    refine .bind (keeps_outcome? rule) fun o => ?_
    split
    · exact .pure
    · exact keeps_firstOf r

theorem keeps_first (rules : List JumpRule) : Keeps P (first survey quiet rules) :=
  .bind .demandComparable fun _ => keeps_firstOf _

theorem keeps_termination (questionId : Id) : Keeps P (termination survey quiet questionId) := by
  unfold termination
  split
  · exact .pure
  · refine .bind .session fun _ => .bind (keeps_textOf _) fun _ => .bind (keeps_fires _ _ _)
      fun _ => ?_
    exact .ite (.bind .log fun _ => .pure) .pure

theorem keeps_ofAnswer (questionId : Id) : Keeps P (ofAnswer survey quiet questionId) := by
  refine .bind (keeps_termination questionId) fun o => ?_
  split
  · exact .pure
  · exact keeps_first _

/-! ## Outcomes can be followed -/

/-- The reason of a termination is never nothing. -/
theorem isTruthy_reasonOf (c : Criterion) : (reasonOf c).isTruthy = true := by
  unfold reasonOf
  split
  · assumption
  · rfl

theorem termination_sound (questionId : Id) :
    Ensures P (termination survey quiet questionId) fun o _ =>
      ∀ x, o = some x → x.Sound survey := by
  unfold termination
  split
  · exact .pure fun _ _ _ hx => nomatch hx
  · next c _ =>
    refine .bind Keeps.session fun _ => .bind (keeps_textOf _) fun _ => .bind (keeps_fires _ _ _)
      fun _ => .ite (fun _ => .bind Keeps.log fun _ => .pure fun _ _ => ?_)
        fun _ => .pure fun _ _ _ hx => nomatch hx
    rintro _ ⟨⟩
    exact { page := fun _ hid => (nomatch hid)
            reason := fun v hv => by cases hv; exact isTruthy_reasonOf c }

section
variable (h : survey.Typed)
include h

/-- A destination that exists is a page of the survey. -/
theorem destinationPage?_mem {d : Destination} {id : Id}
    (hd : survey.destinationPage? d = some id) : id ∈ survey.pages.map Page.id := by
  have hgiven : ∀ {j : Id} {p : Page}, survey.page? j = some p → ∀ {k : Id}, k = p.id →
      k.given? = some id → id ∈ survey.pages.map Page.id := by
    rintro j p hp _ rfl hid
    rw [Value.given?_of_isText (h.pageId p (h.pagesTyped.of_page? hp).1)] at hid
    exact Option.some.inj hid ▸ List.mem_map_of_mem (h.pagesTyped.of_page? hp).1
  unfold Survey.destinationPage? at hd
  split at hd
  · obtain ⟨p, hp, hid⟩ := Option.bind_eq_some_iff.1 hd
    exact hgiven hp rfl hid
  · obtain ⟨q, -, hq⟩ := Option.bind_eq_some_iff.1 hd
    obtain ⟨p, hp, hid⟩ := Option.bind_eq_some_iff.1 hq
    exact hgiven hp (h.pagesTyped.of_page? hp).2.symm hid
  · cases hd

theorem outcome?_sound (rule : JumpRule) :
    Ensures P (outcome? survey quiet rule) fun o _ => ∀ x, o = some x → x.Sound survey := by
  have hnothing : ∀ {page : Option Id}, (∀ id, page = some id → id ∈ survey.pages.map Page.id) →
      ∀ x, some (⟨rule.id, rule.destination, page, none⟩ : JumpOutcome) = some x →
        x.Sound survey := by
    rintro page hpage _ ⟨⟩
    exact ⟨hpage, fun _ hv => nomatch hv⟩
  refine .ite (fun _ => .pure fun _ _ => hnothing fun _ hid => nomatch hid) fun _ => ?_
  split
  · next page hd =>
    refine .pure fun _ _ => hnothing ?_
    rintro _ ⟨⟩
    exact destinationPage?_mem h hd
  · exact .bind Keeps.log fun _ => .pure fun _ _ _ hx => nomatch hx

theorem firstOf_sound : ∀ rules : List JumpRule, Ensures (fun _ => True)
    (firstOf survey quiet rules) fun o _ => ∀ x, o = some x → x.Sound survey
  | [] => .pure fun _ _ _ hx => nomatch hx
  | rule :: r => by
    refine .bind (keeps_ruleHolds rule) fun _ => .ite (fun _ => ?_) fun _ => firstOf_sound r
    refine .bind (outcome?_sound h rule) fun o => ?_
    split
    · exact .pure fun _ ho => ho
    · exact (firstOf_sound r).mono (fun _ _ => trivial) fun _ _ hs => hs

theorem first_sound (rules : List JumpRule) :
    Ensures P (first survey quiet rules) fun o _ => ∀ x, o = some x → x.Sound survey :=
  .bind Keeps.demandComparable fun _ =>
    (firstOf_sound h _).mono (fun _ _ => trivial) fun _ _ hs => hs

theorem ofAnswer_sound (questionId : Id) :
    Ensures P (ofAnswer survey quiet questionId) fun o _ => ∀ x, o = some x → x.Sound survey := by
  refine .bind (termination_sound questionId) fun o => ?_
  split
  · exact .pure fun _ ho => ho
  · exact first_sound h _

theorem ofPage_sound (pageId : Id) :
    Ensures P (ofPage survey quiet pageId) fun o _ => ∀ x, o = some x → x.Sound survey :=
  first_sound h _

end

end Jump

end Questionnaire
