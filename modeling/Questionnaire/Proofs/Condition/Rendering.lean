import Questionnaire.Number.Shortest
import Questionnaire.Proofs.Condition.Forms

/-!
# Writing conditions

A condition of flat shape has a canonical text (`render`), and reading that text gives the condition
back (`parse_render`), whatever its strings contain. Numbers with a fraction are left out, and so are
integers beyond `2 ^ 53`, which may be read as one of their neighbours.

The text of a predicate has the words of the form of that predicate, with a blank behind each comma
(`parse_predicate`). From there on texts are composed of texts, and so are the conditions that are
read (`Rereads`).
-/

namespace Questionnaire

open Text

/-! ## Canonical texts -/

/-- The characters of a text as they stand between single quotes: a backslash stands in front of
every single quote and every backslash. -/
def escape : List Char → List Char
  | [] => []
  | c :: r => if c == singleQuote || c == backslash then backslash :: c :: escape r else c :: escape r

/-- A text between single quotes. -/
def quotation (s : String) : String :=
  String.ofList (singleQuote :: (escape s.toList ++ [singleQuote]))

/-- The canonical text of a literal. -/
def Literal.render : Literal → String
  | .text s => quotation s
  | .int i => toString i
  | .float x => x.text Binary64.plainLayout

/-- A literal that is read as it is written: a text, or an integer up to `2 ^ 53`. -/
def Literal.isExact : Literal → Bool
  | .text _ => true
  | .int i => i.natAbs ≤ Binary64.twoTo 53
  | .float _ => false

namespace Condition

mutual

/-- The canonical text of a condition. -/
def render : Condition → String
  | .comparison test v l => test.name ++ "(answer(" ++ quotation v ++ "), " ++ l.render ++ ")"
  | .selection test v ls =>
    test.name ++ "(" ++ quotation v ++ ", [" ++ ", ".intercalate (ls.map Literal.render) ++ "])"
  | .emptiness test v => test.name ++ "(answer(" ++ quotation v ++ "))"
  | .joined k parts => (String.ofList k.sign).intercalate (renderParts parts)
  | .negated c => negation (render c)

/-- The canonical texts of a list of conditions. -/
def renderParts : List Condition → List String
  | [] => []
  | c :: r => render c :: renderParts r

end

theorem renderParts_eq_map (parts : List Condition) : renderParts parts = parts.map render := by
  induction parts with
  | nil => rfl
  | cons c r ih => rw [renderParts, ih, List.map_cons]

theorem mem_literalsOf {parts : List Condition} {p : Condition} {l : Literal} (hp : p ∈ parts)
    (hl : l ∈ p.literals) : l ∈ literalsOf parts := by
  induction hp with
  | head => exact List.mem_append_left _ hl
  | tail _ _ ih => exact List.mem_append_right _ ih

variable {c : Condition} {l : Literal} {ls : List Literal}

/-! ## The words of canonical texts -/

theorem spells_escape (cs : List Char) : Spells singleQuote (escape cs ++ [singleQuote]) cs := by
  induction cs with
  | nil => exact .close
  | cons c r ih =>
    rw [escape]
    split
    · next hc =>
      refine .escaped ?_ ih
      simp only [Bool.or_eq_true, beq_iff_eq] at hc
      rcases hc with rfl | rfl <;> decide
    · next hc =>
      simp only [Bool.or_eq_true, beq_iff_eq, not_or] at hc
      exact .plain hc.1 hc.2 ih

theorem stringForm_quotation (s : String) : StringForm (quotation s).toList s := by
  have hform : StringForm _ (String.ofList s.toList) := .quoted rfl (spells_escape s.toList)
  rwa [String.ofList_toList, ← String.toList_ofList (l := singleQuote :: _)] at hform

/-- An integer up to `2 ^ 53` is read from its decimal text. -/
theorem literalForm_render (hl : l.isExact = true) : LiteralForm l.render.toList l := by
  cases l with
  | text s => exact .text (stringForm_quotation s)
  | int i =>
    obtain ⟨x, hx, hint⟩ := Binary64.toInt?_ofChars?_toString (of_decide_eq_true hl)
    exact .int (Binary64.numeral_toString i) (Binary64.point_not_mem_toString i) hx hint
  | float x => cases hl

theorem spaced_intercalate (texts : List String) : Spaced (", ".intercalate texts).toList
    ((texts.map String.toList).intersperse [',']) := by
  induction texts with
  | nil => exact .nil
  | cons s texts ih =>
    cases texts with
    | nil => simpa using Spaced.single s.toList
    | cons s' texts =>
      have hcomma : Spaced ", ".toList [[',']] := (Spaced.single [',']).append (.blank rfl .nil)
      have hspaced := ((Spaced.single s.toList).append hcomma).append ih
      simpa [String.intercalate_cons_cons] using hspaced

/-! ## Predicates -/

/-- A predicate is read from its canonical text. -/
theorem parse_predicate (h : IsPredicate c) (hexact : ∀ l ∈ c.literals, l.isExact = true) :
    parse (render c) = .ok c := by
  cases h with
  | @comparison test v l htest =>
    have hl := literalForm_render (hexact l (.head _))
    refine parse_of_form (.comparison (.answer (stringForm_quotation v)) (.literal hl htest)) ?_
    have hspaced := (Spaced.flatten
      [test.name.toList, ['('], "answer".toList, ['('], (quotation v).toList, [')'], [',']]).append
      (.blank (c := ' ') rfl (.flatten [l.render.toList, [')']]))
    simpa [render] using hspaced
  | @selection test v ls =>
    have hls : List.Forall₂ LiteralForm ((ls.map Literal.render).map String.toList) ls := by
      rw [List.map_map, List.forall₂_map_left_iff, List.forall₂_same]
      exact fun l hl => literalForm_render (hexact l hl)
    refine parse_of_form (.selection (.quoted (stringForm_quotation v)) (.list hls)) ?_
    have hopen := (Spaced.flatten
      [test.name.toList, ['('], (quotation v).toList, [',']]).append
      (.blank (c := ' ') rfl (.single ['[']))
    have hspaced := (hopen.append (spaced_intercalate (ls.map Literal.render))).append
      (.flatten [[']'], [')']])
    simpa [render] using hspaced
  | @emptiness test v =>
    refine parse_of_form (.emptiness (.answer (stringForm_quotation v))) ?_
    have hspaced := Spaced.flatten
      [test.name.toList, ['('], "answer".toList, ['('], (quotation v).toList, [')'], [')']]
    simpa [render] using hspaced

/-! ## Composite conditions -/

/-- Conditions of one shape are read from their canonical texts. -/
def Rereads (P : Condition → Prop) : Prop :=
  ∀ c, P c → (∀ l ∈ c.literals, l.isExact = true) → parse (render c) = .ok c

namespace Rereads

variable {P Q : Condition → Prop}

theorem predicate : Rereads IsPredicate := fun _ h hexact => parse_predicate h hexact

theorem mayBeNegated (h : Rereads P) (hP : ∀ {c}, P c → ∀ e, c ≠ .negated e) :
    Rereads (MayBeNegated P) := by
  intro c hc hexact
  cases hc with
  | plain hc => exact h c hc hexact
  | @negated c hc =>
    have hparse := parse_negation (h c hc hexact)
    rwa [toggled_of_ne_negated (hP hc)] at hparse

theorem mayBeJoined {k : Connective} (hpart : Rereads P) (hwhole : Rereads Q)
    (hjoin : ∀ {texts : List String} {conds : List Condition}, 2 ≤ texts.length →
      List.Forall₂ (fun t c => parse t = .ok c ∧ P c) texts conds →
      parse ((String.ofList k.sign).intercalate texts) = .ok (.joined k conds)) :
    Rereads (MayBeJoined k P Q) := by
  intro c hc hexact
  cases hc with
  | single hc => exact hwhole c hc hexact
  | @joined parts hlen hparts =>
    rw [render, renderParts_eq_map]
    refine hjoin (by simpa using hlen) ?_
    rw [List.forall₂_map_left_iff, List.forall₂_same]
    intro p hp
    exact ⟨hpart p (hparts p hp) fun l hl => hexact l (mem_literalsOf hp hl), hparts p hp⟩

theorem atom : Rereads IsAtom := predicate.mayBeNegated isPredicate_ne_negated

theorem disjunction : Rereads IsDisjunction := by
  refine atom.mayBeJoined predicate fun hlen h => ?_
  refine parse_or hlen (h.imp fun _ c hc => ⟨hc.1, ?_⟩)
  cases hc.2 with
  | plain h => cases h <;> rfl
  | negated h => cases h <;> rfl

theorem clause : Rereads IsClause := disjunction.mayBeNegated isDisjunction_ne_negated

theorem conjunction : Rereads IsConjunction := by
  have hne {c : Condition} (h : IsDisjunction c) : c.connective? ≠ some .and ∧
      (Condition.negated c).connective? ≠ some .and := by
    cases h with
    | single h => cases h <;> exact ⟨nofun, nofun⟩
    | joined => exact ⟨nofun, nofun⟩
  refine clause.mayBeJoined disjunction fun hlen h => ?_
  refine parse_and hlen (h.imp fun _ c hc => ⟨hc.1, ?_⟩)
  cases hc.2 with
  | plain h => exact (hne h).1
  | negated h => exact (hne h).2

end Rereads

/-- Reading the canonical text of a flat condition gives the condition back, whatever variables it
names and whatever its texts contain, as long as its numbers are integers up to `2 ^ 53`. -/
theorem parse_render (h : IsFlat c) (hexact : ∀ l ∈ c.literals, l.isExact = true) :
    parse (render c) = .ok c := by
  have hflat : Rereads IsFlat := Rereads.conjunction.mayBeNegated isConjunction_ne_negated
  exact hflat c h hexact

/-- A condition whose texts contain quotes, backslashes, signs, parentheses and a line feed. -/
def entangled : Condition :=
  .negated (.joined .and
    [.negated (.joined .or [.negated (.comparison .equals "it's" (.text ") || !(\"")),
      .emptiness .notEmpty "A && B"]),
    .selection .none "C:\\" [.text "\\', ]", .int (-9007199254740992), .text "\n"],
    .comparison .greaterThan "" (.int 18)])

theorem parse_render_entangled :
    (IsFlat entangled ∧ ∀ l ∈ entangled.literals, l.isExact = true) ∧
      render entangled = "!(!(!(equals(answer('it\\'s'), ') || !(\"')) || " ++
        "notEmpty(answer('A && B'))) && noneSelected('C:\\\\', " ++
        "['\\\\\\', ]', -9007199254740992, '\n']) && greaterThan(answer(''), 18))" ∧
      parse (render entangled) = .ok entangled := by
  have hflat : IsFlat entangled := by
    refine .negated (.joined (by decide) (List.forall_mem_cons.2 ⟨.negated (.joined (by decide) ?_),
      List.forall_mem_cons.2 ⟨.plain (.single .selection), ?_⟩⟩))
    · exact List.forall_mem_cons.2
        ⟨.negated (.comparison nofun), List.forall_mem_singleton.2 (.plain .emptiness)⟩
    · exact List.forall_mem_singleton.2 (.plain (.single (.comparison fun _ => rfl)))
  have hexact : ∀ l ∈ entangled.literals, l.isExact = true := by decide
  exact ⟨⟨hflat, hexact⟩, by decide +kernel, parse_render hflat hexact⟩

end Condition

end Questionnaire
