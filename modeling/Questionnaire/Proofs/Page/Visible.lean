import Questionnaire.Page.Rendered
import Questionnaire.Proofs.Flow

/-!
# What is visible

Whether something is shown is a matter of its condition, the answers and the embedded data alone:
there is a verdict on each authored condition (`Context.verdict`), and the work that asks for it
changes nothing in the session (`Context.reads_shows`). How failures are logged does not matter to
it. So what work keeps of a list is what the verdicts let through (`Flow.Ensures.keep`), whatever
was rendered before: rendering leaves the answers and the embedded data as they are
(`Session.SameData`).
-/

namespace Questionnaire

open Flow

/-- A session with the same answers and the same embedded data, which is all that a verdict or a
wording depends on. -/
structure Session.SameData (s t : Session) : Prop where
  responses : t.responses = s.responses
  embedded : t.embedded = s.embedded

theorem Session.SameData.context {s t : Session} (h : s.SameData t) (survey : Survey) :
    t.context survey = s.context survey := by
  rw [Session.context, Session.context, h.responses, h.embedded]

namespace Context

variable (ctx : Context)

/-! ## Verdicts -/

/-- The open verdict on an authored condition; without one it is favourable. -/
def verdict (criterion : Option Criterion) : Except Fault Bool :=
  (ctx.judgeOpenAuthored false ((criterion.map Criterion.text).getD .null)).1

/-- Whether there is a verdict and it is favourable. -/
def isFavourable : Except Fault Bool → Bool
  | .ok b => b
  | .error _ => false

/-- Whether something with an authored condition is visible. -/
def isVisible (criterion : Option Criterion) : Bool := isFavourable (ctx.verdict criterion)

/-- The group of choices that a choice of a question names, if the question has it. -/
def choiceGroupOf? (q : Question) (c : Choice) : Option ChoiceGroup :=
  c.groupKey.given?.bind q.choiceGroup?

/-- The verdict on a choice: on its own condition, and if that is favourable, on the condition of
its group. -/
def choiceVerdict (q : Question) (c : Choice) : Except Fault Bool :=
  (ctx.verdict c.visibleIf).bind fun shown =>
    match shown, choiceGroupOf? q c with
    | true, some g => ctx.verdict g.visibleIf
    | shown, _ => .ok shown

/-- Whether a choice of a question is visible: it is visible itself, and so is its group. -/
def isChoiceVisible (q : Question) (c : Choice) : Bool :=
  ctx.isVisible c.visibleIf && (choiceGroupOf? q c).all fun g => ctx.isVisible g.visibleIf

theorem isFavourable_choiceVerdict (q : Question) (c : Choice) :
    isFavourable (ctx.choiceVerdict q c) = ctx.isChoiceVisible q c := by
  rw [choiceVerdict, isChoiceVisible, isVisible]
  cases ctx.verdict c.visibleIf with
  | error e => rfl
  | ok shown =>
    cases shown with
    | false => rfl
    | true => cases choiceGroupOf? q c <;> rfl

/-! ## Asking for a verdict -/

/-- How failures are logged does not matter to a verdict. -/
theorem judgeOpenAuthored_fst (quiet : Bool) (written : Value) :
    (ctx.judgeOpenAuthored quiet written).1 = (ctx.judgeOpenAuthored false written).1 := by
  cases written with
  | text s =>
    rw [judgeOpenAuthored, judgeOpenAuthored, judgeOpen, judgeOpen]
    split
    · rfl
    · cases ctx.judge s with
      | ok b => rfl
      | error e => cases h : e.isAuthoring <;> simp [h]
  | _ => rfl

theorem reads_shows (quiet : Bool) (criterion : Option Criterion) :
    (ctx.shows quiet criterion).Reads fun _ => ctx.verdict criterion := by
  refine ((Reads.logAll _).bind fun _ => .ofResult _).congr fun _ => ?_
  exact ctx.judgeOpenAuthored_fst quiet _

theorem reads_showsChoice (quiet : Bool) (q : Question) (c : Choice) :
    (ctx.showsChoice quiet c (some q)).Reads fun _ => ctx.choiceVerdict q c := by
  refine (ctx.reads_shows quiet c.visibleIf).bind fun shown => ?_
  cases shown with
  | false => exact .pure false
  | true =>
    cases hgroup : choiceGroupOf? q c with
    | none =>
      have hnone : ((some q).bind fun q => c.groupKey.given?.bind q.choiceGroup?) = none := hgroup
      simp only [if_true, hnone]
      exact .pure true
    | some g =>
      have hsome : ((some q).bind fun q => c.groupKey.given?.bind q.choiceGroup?) = some g := hgroup
      simp only [if_true, hsome]
      exact ctx.reads_shows quiet g.visibleIf

end Context

open Context

/-! ## What is kept of a list -/

namespace Flow

variable {α : Type} {test : α → Flow Bool} {v : α → Except Fault Bool} {P : Session → Prop}

/-- Of a list, what the verdicts are favourable to is kept; there is one on each element. -/
theorem Ensures.keep : ∀ {l : List α},
    (∀ a ∈ l, Ensures P (test a) fun b s => P s ∧ v a = .ok b) →
      Ensures P (Renderer.keep test l) fun kept s => P s ∧ (∀ a ∈ l, ∃ b, v a = .ok b) ∧
        kept = l.filter fun a => isFavourable (v a)
  | [], _ => .pure fun _ h => ⟨h, fun _ ha => (nomatch ha), rfl⟩
  | a :: r, h => by
    refine .bind (h a (.head _)) fun b => .given (fun _ hb => hb.2) fun hb => ?_
    have hr := keep fun c hc => h c (.tail _ hc)
    refine .bind (hr.mono (fun _ h => h.1) fun _ _ h => h) fun rest => .pure fun s hs => ?_
    obtain ⟨hP, hall, rfl⟩ := hs
    refine ⟨hP, List.forall_mem_cons.2 ⟨⟨b, hb⟩, hall⟩, ?_⟩
    rw [List.filter_cons, hb]
    rfl

/-- What is kept of a list is part of it. -/
theorem Ensures.keep_sublist : ∀ {l : List α},
    Ensures (fun _ => True) (Renderer.keep test l) fun kept _ => kept.Sublist l
  | [] => .pure fun _ _ => .refl _
  | a :: r => by
    refine .bind (Q := fun _ _ => True) (fun _ _ _ _ _ => trivial) fun passes => ?_
    refine .bind (keep_sublist (l := r)) fun rest => .pure fun _ hrest => ?_
    cases passes with
    | true => exact hrest.cons_cons a
    | false => exact hrest.cons a

/-- Work that tries the elements of a list has a result if there is a verdict on each of them. -/
theorem Yields.keep : ∀ {l : List α}, (∀ a ∈ l, Yields P (test a) fun _ => P) →
    Yields P (Renderer.keep test l) fun _ => P
  | [], _ => .pure fun _ h => h
  | a :: _, h => .bind (h a (.head _)) fun _ =>
      .bind (keep fun c hc => h c (.tail _ hc)) fun _ => .pure fun _ h => h

/-- Of a list, what is known to pass is kept. -/
theorem Yields.keep_known {p : α → Bool} : ∀ {l : List α},
    (∀ a ∈ l, Yields P (test a) fun b s => P s ∧ b = p a) →
      Yields P (Renderer.keep test l) fun kept s => P s ∧ kept = l.filter p
  | [], _ => .pure fun _ h => ⟨h, rfl⟩
  | a :: r, h => by
    refine .bind_known (h a (.head _)) <| .bind_known (keep_known fun c hc => h c (.tail _ hc)) ?_
    refine .pure fun s hs => ⟨hs, ?_⟩
    rw [List.filter_cons]

end Flow

namespace Renderer

variable (r : Renderer)

theorem reads_shows (criterion : Option Criterion) :
    (r.shows criterion).Reads fun s => (s.context r.survey).verdict criterion :=
  Reads.session.bind fun s => (s.context r.survey).reads_shows r.quiet criterion

theorem reads_wording (text : Value) :
    (r.wording text).Reads fun s => Wording.resolveAuthored text r.iteration r.survey.questions
      s.responses (some s.embedded) :=
  Reads.session.bind fun _ => .ofResult _

/-! ## The parts of a page that are visible -/

variable (s : Session)

/-- The choices of a question that are visible in a session: its own in order, then the carried
ones. -/
def visibleChoices (q : Question) : List Choice :=
  (Carried.allChoices q r.survey s.responses).1.filter
    ((s.context r.survey).isChoiceVisible q)

/-- Whether no group of a page hides a question: every group of the page that the question names is
visible. -/
def isGroupVisible (p : Page) (q : Question) : Bool :=
  (r.survey.groupsOnPage p.id).all fun g =>
    !q.groupId.equal g.id || (s.context r.survey).isVisible g.visibleIf

/-- The questions of a page that are visible in a session, in authored order. -/
def visibleQuestions (p : Page) : List Question :=
  (r.survey.questionsOnPage p.id).filter fun q =>
    (s.context r.survey).isVisible q.visibleIf && r.isGroupVisible s p q

end Renderer

end Questionnaire
