import Questionnaire.Page.Rendered
import Questionnaire.Proofs.Flow

/-!
# Rendering changes orders only

A property of sessions that no order matters to is kept by all that rendering does. The
lemmas follow the parts of a page, from the order of a list to the page as a whole
(`Renderer.keeps_page`).
-/

namespace Questionnaire

open Flow

/-- What a condition shows is decided without changing the session. -/
theorem Context.preserves_shows (P : Session → Prop) (ctx : Context) (quiet : Bool)
    (criterion : Option Criterion) : Preserves P (ctx.shows quiet criterion) :=
  .bind .logAll fun _ => .ofResult

theorem Context.keeps_shows (P : Session → Prop) (ctx : Context) (quiet : Bool)
    (criterion : Option Criterion) : Keeps P (ctx.shows quiet criterion) :=
  (preserves_shows P ctx quiet criterion).keeps

theorem Context.keeps_showsChoice (P : Session → Prop) (ctx : Context) (quiet : Bool) (c : Choice)
    (question : Option Question) : Keeps P (ctx.showsChoice quiet c question) := by
  refine .bind (keeps_shows P ctx quiet _) fun _ => .ite ?_ .pure
  split
  · exact keeps_shows P ctx quiet _
  · exact .pure

theorem Carried.keeps_choicesOf (P : Session → Prop) (q : Question) (survey : Survey) :
    Keeps P (choicesOf q survey) :=
  .bind .session fun _ => .bind .demandComparable fun _ => .bind .ofResult fun _ =>
    .bind .logAll fun _ => .pure

variable {P : Session → Prop} (hP : ∀ s orders, P s → P { s with orders := orders })

include hP in
/-- Putting things in order changes the orders only. -/
theorem Order.keeps_arrange (weighting : Weighting) (scope owner : String) (mode : OrderMode)
    (items : List Sortable) : Keeps P (arrange weighting scope owner mode items) := by
  refine .ite .pure <| .bind .session fun s => ?_
  split
  · refine .bind .drawn fun r => .bind .ofResult fun order => ?_
    exact .bind (.update fun s hs => hP s _ hs) fun _ => .pure
  · refine .bind .log fun _ => .bind .demandKeys fun _ => ?_
    exact .bind (.update fun s hs => hP s _ hs) fun _ => .pure

namespace Renderer

/-- Trying the elements of a list keeps what each try keeps. -/
theorem keeps_keep {α : Type} {test : α → Flow Bool} (h : ∀ a, Keeps P (test a)) :
    ∀ l : List α, Keeps P (keep test l)
  | [] => .pure
  | a :: r => .bind (h a) fun _ => .bind (keeps_keep h r) fun _ => .pure

variable (r : Renderer)

theorem keeps_shows (criterion : Option Criterion) : Keeps P (r.shows criterion) :=
  .bind .session fun _ => Context.keeps_shows P _ _ _

theorem keeps_wording (text : Value) : Keeps P (r.wording text) :=
  .bind .session fun _ => .ofResult

theorem keeps_choice (c : Choice) : Keeps P (r.choice c) :=
  .bind (keeps_wording r c.label) fun _ => .pure

include hP

theorem keeps_question (q : Question) : Keeps P (r.question q) := by
  refine .bind .session fun s => .bind (Carried.keeps_choicesOf P q r.survey) fun _ => ?_
  refine .bind (keeps_keep (fun _ => Context.keeps_showsChoice P _ _ _ _) _) fun _ => ?_
  refine .bind (Order.keeps_arrange hP _ _ _ _ _) fun _ => .bind .demandKeys fun _ => ?_
  refine .bind (keeps_wording r q.text) fun _ => ?_
  exact .bind (.mapM fun c _ => keeps_choice r c) fun _ => .pure

theorem keeps_questions (owner : String) (mode : OrderMode) (qs : List Question) :
    Keeps P (r.questions owner mode qs) := by
  refine .bind (keeps_keep (fun _ => keeps_shows r _) qs) fun _ => ?_
  refine .bind (Order.keeps_arrange hP _ _ _ _ _) fun _ => .bind .demandKeys fun _ => ?_
  exact .mapM fun q _ => keeps_question hP r q

theorem keeps_group? (onPage : List Question) (g : Group) : Keeps P (r.group? onPage g) := by
  refine .bind (keeps_shows r g.visibleIf) fun _ => .ite ?_ .pure
  refine .bind (keeps_wording r g.title) fun _ => ?_
  exact .bind (keeps_questions hP r _ _ _) fun _ => .pure

theorem keeps_groups (p : Page) : Keeps P (r.groups p) := by
  refine .bind .demandComparable fun _ => .bind .demandComparable fun _ => ?_
  refine .bind (.mapM fun g _ => keeps_group? hP r _ g) fun _ => .bind .demandKeys fun _ => ?_
  exact .ite .pure <| .bind (keeps_questions hP r _ _ _) fun _ => .pure

/-- Rendering a page changes the orders only. -/
theorem keeps_page (pageId : Id) : Keeps P (r.page pageId) := by
  unfold page
  split
  · exact .throw
  · next p _ =>
    refine .bind (keeps_shows r p.visibleIf) fun _ => .ite ?_ ?_
    · refine .bind (keeps_groups hP r p) fun _ => .bind (Order.keeps_arrange hP _ _ _ _ _)
        fun _ => ?_
      exact .bind (keeps_wording r p.title) fun _ => .pure
    · exact .bind (keeps_wording r p.title) fun _ => .pure

end Renderer

end Questionnaire
