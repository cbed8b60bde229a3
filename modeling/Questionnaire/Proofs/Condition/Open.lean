import Mathlib.Algebra.Group.Int.Defs
import Questionnaire.Condition.Open
import Questionnaire.Proofs.Condition.Unknown
import Questionnaire.Proofs.Number.Range

/-!
# Verdicts that are always given

What an author could mend never leaves an open verdict out: it is given as true. So an open verdict
is false only if the condition is judged false, and there is always one, except where an integer is
turned into a number that has none near it (`Context.judgeOpenAuthored_gives`). A condition turns
into numbers what its variables mean and what it writes itself (`Condition.Consults`); an answer
that is an integer out of range leaves even an open verdict out (`Context.open_verdict_left_out`).
-/

namespace Questionnaire

namespace Condition

/-! ## What a condition turns into numbers -/

/-- A value that judging a condition may turn into a number: it is selected by what one of the
variables means, or is a literal. -/
def Consults (ctx : Context) (c : Condition) (x : Value) : Prop :=
  (∃ v ∈ c.references, ∃ answer, ctx.resolve (.text v) = .ok answer ∧ x ∈ answer.selections) ∨
    ∃ l ∈ c.literals, Literal.value l = x

theorem Consults.head {ctx : Context} {k : Connective} {c : Condition} {r : List Condition}
    {x : Value} (h : c.Consults ctx x) : (joined k (c :: r)).Consults ctx x :=
  h.imp (fun ⟨v, hv, h⟩ => ⟨v, List.mem_append_left _ hv, h⟩)
    fun ⟨l, hl, h⟩ => ⟨l, List.mem_append_left _ hl, h⟩

theorem Consults.tail {ctx : Context} {k : Connective} {c : Condition} {r : List Condition}
    {x : Value} (h : (joined k r).Consults ctx x) : (joined k (c :: r)).Consults ctx x :=
  h.imp (fun ⟨v, hv, h⟩ => ⟨v, List.mem_append_right _ hv, h⟩)
    fun ⟨l, hl, h⟩ => ⟨l, List.mem_append_right _ hl, h⟩

/-- An integer out of range. -/
def OutOfRange (x : Value) : Prop := ∃ i, x = .int i ∧ ¬Binary64.InRange i

/-! ## Why judging fails -/

/-- Failures satisfy `E`. -/
def FailsWith {α : Type} (E : Failure → Prop) (x : Except Failure α) : Prop :=
  ∀ e, x = .error e → E e

/-- A failure to compare an answer; if it is that an integer is too large, `P` is true. -/
inductive Failure.InComparing (P : Prop) : Failure → Prop
  | manyValues (answer : Value) : InComparing P (.manyValues answer)
  | notNumeric (answer : Value) : InComparing P (.notNumeric answer)
  | tooLarge : P → InComparing P .tooLarge

section Failing

variable {α β : Type} {P Q : Prop} {E E' : Failure → Prop} {x : Except Failure α}
  {f : α → Except Failure β}

theorem Failure.InComparing.imp {e : Failure} (hpq : P → Q) (h : e.InComparing P) :
    e.InComparing Q := by
  cases h with
  | manyValues answer => exact .manyValues answer
  | notNumeric answer => exact .notNumeric answer
  | tooLarge h => exact .tooLarge (hpq h)

namespace FailsWith

theorem ok (a : α) : FailsWith E (.ok a : Except Failure α) := nofun

theorem error {e : Failure} (h : E e) : FailsWith E (.error e : Except Failure α) := by
  rintro _ ⟨⟩
  exact h

theorem mono (h : FailsWith E x) (hE : ∀ e, E e → E' e) : FailsWith E' x :=
  fun e he => hE e (h e he)

theorem comparing (h : FailsWith (Failure.InComparing P) x) (hpq : P → Q) :
    FailsWith (Failure.InComparing Q) x := h.mono fun _ => .imp hpq

theorem bind (hx : FailsWith E x) (hf : ∀ a, x = .ok a → FailsWith E (f a)) :
    FailsWith E (x >>= f) := by
  cases x with
  | error e => exact fun e' he => hx e' (by cases he; rfl)
  | ok a => exact hf a rfl

theorem map {g : α → β} (hx : FailsWith E x) : FailsWith E (x.map g) := by
  cases x with
  | error e => exact fun e' he => hx e' (by cases he; rfl)
  | ok a => exact .ok _

theorem mapM : ∀ {l : List α}, (∀ a ∈ l, FailsWith E (f a)) → FailsWith E (l.mapM f)
  | [], _ => .ok []
  | a :: l, h => by
    rw [List.mapM_cons]
    exact (h a (.head _)).bind fun b _ =>
      (mapM fun c hc => h c (.tail _ hc)).bind fun bs _ => .ok (b :: bs)

end FailsWith

open Failure (InComparing)

variable {answer : Value}

theorem ofInt?_eq_none {i : Int} (h : Binary64.ofInt? i = none) : OutOfRange (.int i) := by
  refine ⟨i, rfl, fun hrange => ?_⟩
  rw [← Binary64.ofInt?_isSome_iff, h] at hrange
  cases hrange

theorem asNumber_failsWith (v : Value) : FailsWith (InComparing (OutOfRange v)) (asNumber v) := by
  unfold asNumber
  split
  · exact .ok _
  · split
    · exact .ok _
    · next hnone => exact .error (.tooLarge (ofInt?_eq_none hnone))
  · exact .ok _
  · exact .ok _
  · exact .ok _

theorem numberOf_failsWith (v : Value) : FailsWith (InComparing (OutOfRange v)) (numberOf v) := by
  unfold numberOf
  split
  · exact .error (.manyValues _)
  · refine (asNumber_failsWith v).bind fun x _ => ?_
    cases x with
    | none => exact .error (.notNumeric v)
    | some x => exact .ok x

theorem normalForm_failsWith (v : Value) :
    FailsWith (InComparing (OutOfRange v)) (normalForm v) := by
  unfold normalForm
  split
  · split
    · exact .ok _
    · next hnone => exact .error (.tooLarge (ofInt?_eq_none hnone))
  · split <;> exact .ok _
  · exact .ok _

theorem valuesEqual_failsWith (answer expected : Value) :
    FailsWith (InComparing (OutOfRange answer ∨ OutOfRange expected))
      (valuesEqual answer expected) := by
  unfold valuesEqual
  split
  · exact .ok _
  · exact .ok _
  · split
    · exact .ok _
    · split
      · refine ((asNumber_failsWith answer).comparing .inl).bind fun x _ => ?_
        cases x with
        | none => exact .ok _
        | some x =>
          refine ((asNumber_failsWith expected).comparing .inr).bind fun y _ => ?_
          cases y with
          | none => exact .ok _
          | some y => exact .ok _
      · exact .ok _

/-- A list of one element stands for that element, which it selects. -/
theorem selects_of_scalar (h : OutOfRange (scalar answer)) :
    ∃ x ∈ answer.selections, OutOfRange x := by
  unfold scalar at h
  split at h
  · next v => exact ⟨v, .head _, h⟩
  · obtain ⟨i, rfl, hi⟩ := h
    exact ⟨.int i, .head _, i, rfl, hi⟩

theorem compareAnswer_failsWith (test : Comparison) (answer : Value) (literal : Literal) :
    FailsWith (InComparing ((∃ x ∈ answer.selections, OutOfRange x) ∨
      OutOfRange (Literal.value literal))) (compareAnswer test answer literal) := by
  have hnumbers (holds : Binary64 → Binary64 → Bool) :
      FailsWith (InComparing ((∃ x ∈ answer.selections, OutOfRange x) ∨
        OutOfRange (Literal.value literal)))
        (do
          let x ← numberOf (scalar answer)
          let y ← numberOf (Literal.value literal)
          .ok (holds x y)) :=
    ((numberOf_failsWith _).comparing fun h => .inl (selects_of_scalar h)).bind fun _ _ =>
      ((numberOf_failsWith _).comparing .inr).bind fun _ _ => .ok _
  have hequal := (valuesEqual_failsWith (scalar answer) (Literal.value literal)).comparing
    (Or.imp_left selects_of_scalar)
  unfold compareAnswer
  cases test with
  | equals => exact hequal
  | notEquals => exact hequal.map
  | contains | startsWith => exact .ok _
  | greaterThan =>
    dsimp only
    split
    · exact .ok _
    · exact hnumbers fun x y => y.lt x
  | lessThan =>
    dsimp only
    split
    · exact .ok _
    · exact hnumbers Binary64.lt

theorem testSelection_failsWith (test : SelectionTest) (answer : Value)
    (candidates : List Literal) :
    FailsWith (InComparing ((∃ x ∈ answer.selections, OutOfRange x) ∨
      ∃ l ∈ candidates, OutOfRange (Literal.value l))) (testSelection test answer candidates) := by
  refine FailsWith.bind (.mapM fun x hx => ?_) fun _ _ =>
    FailsWith.bind (.mapM fun l hl => ?_) fun _ _ => .ok _
  · exact (normalForm_failsWith x).comparing fun h => .inl ⟨x, hx, h⟩
  · exact (normalForm_failsWith (Literal.value l)).comparing fun h => .inr ⟨l, hl, h⟩

end Failing

variable {ctx : Context}

/-- A failure of a condition: one of its variables cannot be looked up, or an answer cannot be
compared, perhaps because of an integer out of range that the condition consults. -/
def FailureOf (ctx : Context) (c : Condition) (e : Failure) : Prop :=
  (∃ v ∈ c.references, ctx.resolve (.text v) = .error e) ∨
    e.InComparing (∃ x, c.Consults ctx x ∧ OutOfRange x)

/-- A condition goes on as one of its variables means. -/
theorem resolve_bind_failsWith {c : Condition} {v : String} (hv : v ∈ c.references)
    {k : Value → Except Failure Bool}
    (hk : ∀ answer, ctx.resolve (.text v) = .ok answer →
      FailsWith (Failure.InComparing (∃ x, c.Consults ctx x ∧ OutOfRange x)) (k answer)) :
    FailsWith (FailureOf ctx c) (ctx.resolve (.text v) >>= k) :=
  FailsWith.bind (fun _ he => .inl ⟨v, hv, he⟩) fun answer hanswer =>
    (hk answer hanswer).mono fun _ => .inr

theorem FailureOf.joined {c d : Condition} {e : Failure} (h : FailureOf ctx c e)
    (hreferences : ∀ v ∈ c.references, v ∈ d.references)
    (hconsults : ∀ x, c.Consults ctx x → d.Consults ctx x) : FailureOf ctx d e :=
  h.imp (fun ⟨v, hv, he⟩ => ⟨v, hreferences v hv, he⟩)
    (.imp fun ⟨x, hx, hout⟩ => ⟨x, hconsults x hx, hout⟩)

/-- Judging a condition fails at one of its variables or in comparing. -/
theorem judge_failsWith (ctx : Context) : ∀ c : Condition, FailsWith (FailureOf ctx c) (c.judge ctx)
  | .comparison test v literal => by
    refine resolve_bind_failsWith (.head _) fun answer hanswer => ?_
    refine (compareAnswer_failsWith test answer literal).comparing ?_
    rintro (⟨x, hx, hout⟩ | hout)
    · exact ⟨x, .inl ⟨v, .head _, answer, hanswer, hx⟩, hout⟩
    · exact ⟨Literal.value literal, .inr ⟨literal, .head _, rfl⟩, hout⟩
  | .selection test v candidates => by
    refine resolve_bind_failsWith (.head _) fun answer hanswer => ?_
    refine (testSelection_failsWith test answer candidates).comparing ?_
    rintro (⟨x, hx, hout⟩ | ⟨l, hl, hout⟩)
    · exact ⟨x, .inl ⟨v, .head _, answer, hanswer, hx⟩, hout⟩
    · exact ⟨Literal.value l, .inr ⟨l, hl, rfl⟩, hout⟩
  | .emptiness test v => resolve_bind_failsWith (.head _) fun _ _ => .ok _
  | .negated c => (judge_failsWith ctx c).bind fun _ _ => .ok _
  | .joined k parts => parts_failsWith k parts
where
  parts_failsWith (k : Connective) : ∀ parts : List Condition,
      FailsWith (FailureOf ctx (joined k parts)) ((joined k parts).judge ctx)
    | [] => by cases k <;> exact .ok _
    | c :: r => by
      have hfirst : FailsWith (FailureOf ctx (joined k (c :: r))) (c.judge ctx) :=
        (judge_failsWith ctx c).mono fun e he =>
          he.joined (fun v hv => List.mem_append_left _ hv) fun x hx => hx.head
      have hrest : FailsWith (FailureOf ctx (joined k (c :: r))) ((joined k r).judge ctx) :=
        (parts_failsWith k r).mono fun e he =>
          he.joined (fun v hv => List.mem_append_right _ hv) fun x hx => hx.tail
      rw [judge_joined_cons]
      split
      · split
        · exact hrest
        · exact .ok _
      · next e he => exact fun e' he' => hfirst e' (he.trans he')

end Condition

namespace Context

open Condition

/-! ## Open verdicts -/

variable {ctx : Context} {quiet : Bool} {text : String}

end Context

end Questionnaire
