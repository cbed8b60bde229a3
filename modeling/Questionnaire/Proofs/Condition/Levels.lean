import Mathlib.Data.List.Forall2
import Questionnaire.Proofs.Condition.Grammar
import Questionnaire.Proofs.Condition.Pieces

/-!
# The levels of a condition

Reading a text calls itself on the pieces of the text, and still it goes no deeper than three levels:
a text without ` && ` outside strings is read as a disjunction, and one without ` || ` as well as a
predicate, because the pieces of a text have no sign that the text has not. So there is a reader for
each level (`atom`, `clause`, `conjunction`), none of which calls itself, and they read the same
(`composite_eq_conjunction`).

What the readers of the levels give has the shape of their level. So a condition that is read is
flat (`IsFlat`): no node of it is degenerate, and it is at most six nodes deep (`flat_of_parse`).
-/

namespace Questionnaire

/-- A literal that is a number. -/
def Literal.isNumber : Literal → Bool
  | .text _ => false
  | .int _ | .float _ => true

namespace Condition

open Text

variable {k : Connective} {cs p : List Char} {c : Condition}

/-! ## Readers that agree -/

section Readers

variable {inner inner' part part' whole whole' : List Char → Except ParseError Condition}

theorem negatable_eq_ok_iff : negatable inner cs = .ok c ↔ (unwrap (trim cs)).2 ≠ [] ∧
    ∃ e, inner (unwrap (trim cs)).2 = .ok e ∧
      c = if (unwrap (trim cs)).1 then .negated e else e := by
  unfold negatable
  generalize unwrap (trim cs) = x
  rcases x with ⟨odd, _ | ⟨y, body⟩⟩
  · simp
  · simp only [List.isEmpty_cons, Bool.false_eq_true, if_false, bind_eq_ok_iff, Except.ok.injEq,
      ne_eq, reduceCtorEq, not_false_eq_true, true_and]
    exact exists_congr fun e => and_congr_right fun _ => eq_comm

theorem negatable_congr (h : inner (unwrap (trim cs)).2 = inner' (unwrap (trim cs)).2) :
    negatable inner cs = negatable inner' cs := by
  simp only [negatable, h]

theorem joinedBy_of_not_cut (h : ¬Cut k none cs) : joinedBy k part whole cs = whole cs := by
  rw [joinedBy, pieces_of_not_cut h]

theorem joinedBy_of_cut (h : Cut k none cs) :
    joinedBy k part whole cs = ((pieces k cs).mapM part).map (.joined k) := by
  have hlen := cut_iff.1 h
  unfold joinedBy
  split
  · next first second r hpieces =>
    rw [hpieces]
    cases (first :: second :: r).mapM part <;> rfl
  · next hne =>
    obtain ⟨first, ps, hps⟩ := List.exists_cons_of_length_pos (by omega : 0 < (pieces k cs).length)
    rw [hps] at hlen
    obtain ⟨second, r, rfl⟩ := List.exists_cons_of_length_pos
      (by simp at hlen; omega : 0 < ps.length)
    exact absurd hps (hne _ _ _)

theorem forall₂_of_mapM {α β ε : Type} {f : α → Except ε β} : ∀ {l : List α} {bs : List β},
    l.mapM f = .ok bs → List.Forall₂ (fun a b => f a = .ok b) l bs
  | [], _, h => by
    cases h
    exact .nil
  | a :: l, _, h => by
    rw [List.mapM_cons, bind_eq_ok_iff] at h
    obtain ⟨b, hb, h⟩ := h
    rw [bind_eq_ok_iff] at h
    obtain ⟨bs, hbs, h⟩ := h
    cases h
    exact .cons hb (forall₂_of_mapM hbs)

theorem mapM_of_forall₂ {α β ε : Type} {f : α → Except ε β} {l : List α} {bs : List β}
    (h : List.Forall₂ (fun a b => f a = .ok b) l bs) : l.mapM f = .ok bs := by
  induction h with
  | nil => rfl
  | cons hab _ ih => rw [List.mapM_cons, hab, ih]; rfl

theorem exists_of_forall₂ {α β : Type} {R : α → β → Prop} {l : List α} {bs : List β}
    (h : List.Forall₂ R l bs) : (∀ a ∈ l, ∃ b, R a b) ∧ ∀ b ∈ bs, ∃ a, R a b := by
  induction h with
  | nil => exact ⟨nofun, nofun⟩
  | cons hab _ ih =>
    exact ⟨List.forall_mem_cons.2 ⟨⟨_, hab⟩, ih.1⟩, List.forall_mem_cons.2 ⟨⟨_, hab⟩, ih.2⟩⟩

/-- A text with a sign outside strings is read as the conditions of its pieces. -/
theorem joinedBy_eq_ok_iff (h : Cut k none cs) : joinedBy k part whole cs = .ok c ↔
    ∃ parts, c = .joined k parts ∧
      List.Forall₂ (fun p c => part p = .ok c) (pieces k cs) parts := by
  rw [joinedBy_of_cut h]
  constructor
  · intro hc
    cases hparts : (pieces k cs).mapM part with
    | error e => rw [hparts] at hc; cases hc
    | ok parts =>
      rw [hparts] at hc
      cases hc
      exact ⟨parts, rfl, forall₂_of_mapM hparts⟩
  · rintro ⟨parts, rfl, hparts⟩
    rw [mapM_of_forall₂ hparts]
    rfl

theorem mapM_congr_of_mem {α β ε : Type} {f g : α → Except ε β} {l : List α}
    (h : ∀ a ∈ l, f a = g a) : l.mapM f = l.mapM g := by
  induction l with
  | nil => rfl
  | cons a l ih =>
    rw [List.mapM_cons, List.mapM_cons, h a (.head _), ih fun b hb => h b (.tail _ hb)]

theorem joinedBy_congr (hpart : Cut k none cs → ∀ p ∈ pieces k cs, part p = part' p)
    (hwhole : ¬Cut k none cs → whole cs = whole' cs) :
    joinedBy k part whole cs = joinedBy k part' whole' cs := by
  by_cases hcut : Cut k none cs
  · rw [joinedBy_of_cut hcut, joinedBy_of_cut hcut, mapM_congr_of_mem (hpart hcut)]
  · rw [joinedBy_of_not_cut hcut, joinedBy_of_not_cut hcut, hwhole hcut]

end Readers

/-! ## Reading without end -/

theorem composed_congr {part part' : List Char → Except ParseError Condition}
    (h : ∀ p, p.length < cs.length → part p = part' p) : composed part cs = composed part' cs :=
  joinedBy_congr (fun hcut _ hp => h _ (length_lt_of_mem_pieces hcut hp)) fun _ =>
    joinedBy_congr (fun hcut _ hp => h _ (length_lt_of_mem_pieces hcut hp)) fun _ => rfl

theorem length_unwrap_trim (cs : List Char) : (unwrap (trim cs)).2.length ≤ cs.length :=
  ((within_unwrap _).trans (within_trim cs)).length_le

/-- Fuel for each character of a text is enough to read it. -/
theorem compositeWithin_eq : ∀ {fuel fuel' : Nat} {cs : List Char}, cs.length ≤ fuel →
    cs.length ≤ fuel' → compositeWithin fuel cs = compositeWithin fuel' cs
  | 0, 0, _, _, _ => rfl
  | 0, _ + 1, [], _, _ => rfl
  | _ + 1, 0, [], _, _ => rfl
  | fuel + 1, fuel' + 1, cs, h, h' => by
    refine negatable_congr (composed_congr fun p hp => ?_)
    have hlen := length_unwrap_trim cs
    exact compositeWithin_eq (by omega) (by omega)

/-- Reading a text calls itself on the pieces of the text. -/
theorem composite_eq (cs : List Char) : composite cs = negatable (composed composite) cs := by
  cases cs with
  | nil => rfl
  | cons c r =>
    refine negatable_congr (composed_congr fun p hp => ?_)
    have hlen := length_unwrap_trim (c :: r)
    simp only [List.length_cons] at hlen
    exact compositeWithin_eq (by omega) (Nat.le_refl _)

/-! ## One reader for each level -/

/-- Reads a part of a disjunction: a predicate that may be negated. -/
def atom : List Char → Except ParseError Condition := negatable predicate

/-- Reads a disjunction of atoms, or a predicate. -/
def disjunction : List Char → Except ParseError Condition := joinedBy .or atom predicate

/-- Reads a part of a conjunction: a disjunction or a predicate, either of which may be negated. -/
def clause : List Char → Except ParseError Condition := negatable disjunction

/-- Reads a conjunction of clauses, or a disjunction or a predicate. -/
def conjunction : List Char → Except ParseError Condition := joinedBy .and clause disjunction

theorem not_cut_unwrap_trim (h : ¬Cut k none cs) : ¬Cut k none (unwrap (trim cs)).2 :=
  fun hcut => h (.of_within ((within_unwrap _).trans (within_trim cs)) hcut)

theorem composite_eq_atom (hand : ¬Cut .and none cs) (hor : ¬Cut .or none cs) :
    composite cs = atom cs := by
  refine (composite_eq cs).trans (negatable_congr ?_)
  rw [composed, joinedBy_of_not_cut (not_cut_unwrap_trim hand),
    joinedBy_of_not_cut (not_cut_unwrap_trim hor)]

theorem composed_eq_disjunction (hand : ¬Cut .and none cs) :
    composed composite cs = disjunction cs := by
  rw [composed, joinedBy_of_not_cut hand]
  refine joinedBy_congr (fun _ p hp => ?_) fun _ => rfl
  -- A piece has no sign of a disjunction left, and none of a conjunction either.
  have hpand : ¬Cut .and none p := fun hcut => hand (.of_within (within_of_mem_pieces hp) hcut)
  exact composite_eq_atom hpand (not_cut_of_mem_pieces hp)

theorem composite_eq_clause (hand : ¬Cut .and none cs) : composite cs = clause cs :=
  (composite_eq cs).trans (negatable_congr (composed_eq_disjunction (not_cut_unwrap_trim hand)))

/-- Reading a text takes a conjunction apart, its parts as disjunctions, and theirs as predicates,
and goes no deeper. -/
theorem composite_eq_conjunction (cs : List Char) : composite cs = negatable conjunction cs := by
  refine (composite_eq cs).trans (negatable_congr ?_)
  refine joinedBy_congr (fun _ p hp => composite_eq_clause (not_cut_of_mem_pieces hp)) fun hand => ?_
  rw [← composed_eq_disjunction hand, composed, joinedBy_of_not_cut hand]

/-! ## The shape of what is read -/

/-- A predicate that compares numbers compares with a number. -/
inductive IsPredicate : Condition → Prop
  | comparison {test : Comparison} {v : String} {l : Literal} :
      (test.isNumeric = true → l.isNumber = true) → IsPredicate (.comparison test v l)
  | selection {test : SelectionTest} {v : String} {ls : List Literal} :
      IsPredicate (.selection test v ls)
  | emptiness {test : EmptinessTest} {v : String} : IsPredicate (.emptiness test v)

/-- What may be negated as a whole. -/
inductive MayBeNegated (P : Condition → Prop) : Condition → Prop
  | plain {c : Condition} : P c → MayBeNegated P c
  | negated {c : Condition} : P c → MayBeNegated P (.negated c)

/-- What may be joined of several parts. -/
inductive MayBeJoined (k : Connective) (P Q : Condition → Prop) : Condition → Prop
  | single {c : Condition} : Q c → MayBeJoined k P Q c
  | joined {parts : List Condition} : 2 ≤ parts.length → (∀ p ∈ parts, P p) →
      MayBeJoined k P Q (.joined k parts)

/-- A part of a disjunction. -/
abbrev IsAtom : Condition → Prop := MayBeNegated IsPredicate

/-- A disjunction, or a predicate. -/
abbrev IsDisjunction : Condition → Prop := MayBeJoined .or IsAtom IsPredicate

/-- A part of a conjunction. -/
abbrev IsClause : Condition → Prop := MayBeNegated IsDisjunction

/-- A conjunction, a disjunction or a predicate. -/
abbrev IsConjunction : Condition → Prop := MayBeJoined .and IsClause IsDisjunction

/-- A condition of the shape that texts have. -/
abbrev IsFlat : Condition → Prop := MayBeNegated IsConjunction

theorem isPredicate_ne_negated (h : IsPredicate c) (e : Condition) : c ≠ .negated e := by
  rintro rfl
  cases h

theorem isDisjunction_ne_negated (h : IsDisjunction c) (e : Condition) : c ≠ .negated e := by
  rintro rfl
  cases h with
  | single h => exact isPredicate_ne_negated h e rfl

theorem isConjunction_ne_negated (h : IsConjunction c) (e : Condition) : c ≠ .negated e := by
  rintro rfl
  cases h with
  | single h => exact isDisjunction_ne_negated h e rfl

section Shapes

variable {P Q : Condition → Prop} {inner part whole : List Char → Except ParseError Condition}

theorem shape_of_negatable (hinner : ∀ {cs c}, inner cs = .ok c → P c)
    (h : negatable inner cs = .ok c) : MayBeNegated P c := by
  obtain ⟨-, e, he, rfl⟩ := negatable_eq_ok_iff.1 h
  split
  · exact .negated (hinner he)
  · exact .plain (hinner he)

theorem shape_of_joinedBy (hpart : ∀ {cs c}, part cs = .ok c → P c)
    (hwhole : ∀ {cs c}, whole cs = .ok c → Q c) (h : joinedBy k part whole cs = .ok c) :
    MayBeJoined k P Q c := by
  by_cases hcut : Cut k none cs
  · obtain ⟨parts, rfl, hall⟩ := (joinedBy_eq_ok_iff hcut).1 h
    refine .joined (hall.length_eq ▸ cut_iff.1 hcut) fun c hc => ?_
    obtain ⟨p, hp⟩ := (exists_of_forall₂ hall).2 c hc
    exact hpart hp
  · rw [joinedBy_of_not_cut hcut] at h
    exact .single (hwhole h)

end Shapes

/-- A literal is compared with as it is, but a numeric test takes the text of a number for the
number. -/
theorem comparedLiteral_eq_ok_iff {test : Comparison} {l l' : Literal} :
    comparedLiteral test l = .ok l' ↔ (l' = l ∧ (test.isNumeric = true → l.isNumber = true)) ∨
      (test.isNumeric = true ∧
        ∃ s x, l = .text s ∧ Binary64.ofText? s = some x ∧ l' = .float x) := by
  unfold comparedLiteral
  constructor
  · intro h
    split at h
    · next htest =>
      cases l with
      | text s =>
        rw [numericLiteral] at h
        split at h
        · next x hx =>
          cases h
          exact .inr ⟨htest, s, x, rfl, hx, rfl⟩
        · cases h
      | int i => cases h; exact .inl ⟨rfl, fun _ => rfl⟩
      | float x => cases h; exact .inl ⟨rfl, fun _ => rfl⟩
    · next htest =>
      cases h
      exact .inl ⟨rfl, fun hnumeric => absurd hnumeric htest⟩
  · rintro (⟨rfl, hnumber⟩ | ⟨htest, s, x, rfl, hx, rfl⟩)
    · split
      · next htest =>
        cases l' with
        | text s => cases hnumber htest
        | int i => rfl
        | float x => rfl
      · rfl
    · rw [if_pos htest, numericLiteral, hx]

theorem isNumber_of_comparedLiteral {test : Comparison} {l l' : Literal}
    (h : comparedLiteral test l = .ok l') (htest : test.isNumeric = true) : l'.isNumber = true := by
  rcases comparedLiteral_eq_ok_iff.1 h with ⟨rfl, hnumber⟩ | ⟨-, _, _, -, -, rfl⟩
  · exact hnumber htest
  · rfl

theorem isPredicate_of_predicate (h : predicate cs = .ok c) : IsPredicate c := by
  obtain ⟨ts, -, hts⟩ := bind_eq_ok_iff.1 h
  cases ofTokens_eq_ok_iff.1 hts with
  | predicate _ _ _ hargs _ =>
    cases hargs with
    | comparison _ _ _ hl => exact .comparison (isNumber_of_comparedLiteral hl)
    | selection _ _ _ => exact .selection
    | emptiness _ => exact .emptiness

theorem isAtom_of_atom (h : atom cs = .ok c) : IsAtom c :=
  shape_of_negatable isPredicate_of_predicate h

theorem isDisjunction_of_disjunction (h : disjunction cs = .ok c) : IsDisjunction c :=
  shape_of_joinedBy isAtom_of_atom isPredicate_of_predicate h

theorem isClause_of_clause (h : clause cs = .ok c) : IsClause c :=
  shape_of_negatable isDisjunction_of_disjunction h

theorem isConjunction_of_conjunction (h : conjunction cs = .ok c) : IsConjunction c :=
  shape_of_joinedBy isClause_of_clause isDisjunction_of_disjunction h

theorem isFlat_of_composite (h : composite cs = .ok c) : IsFlat c :=
  shape_of_negatable isConjunction_of_conjunction ((composite_eq_conjunction cs).symm.trans h)

/-! ## The nodes of what is read -/

/-- A condition that stands somewhere in another one. -/
inductive Node : Condition → Condition → Prop
  | self {c : Condition} : Node c c
  | part {n p : Condition} {k : Connective} {parts : List Condition} : p ∈ parts → Node n p →
      Node n (.joined k parts)
  | operand {n c : Condition} : Node n c → Node n (.negated c)

/-- A node with nothing superfluous: several parts, none of which is joined in the same way, no
negation of a negation, and a number to compare numbers with. -/
def IsProper : Condition → Prop
  | .comparison test _ l => test.isNumeric = true → l.isNumber = true
  | .selection .. | .emptiness .. => True
  | .joined k parts => 2 ≤ parts.length ∧ ∀ p ∈ parts, ∀ parts', p ≠ .joined k parts'
  | .negated c => ∀ c', c ≠ .negated c'

mutual

/-- How many nodes a condition is deep. -/
def depth : Condition → Nat
  | .comparison .. | .selection .. | .emptiness .. => 1
  | .joined _ parts => depthOf parts + 1
  | .negated c => depth c + 1

/-- How many nodes the deepest condition of a list is deep. -/
def depthOf : List Condition → Nat
  | [] => 0
  | c :: r => max (depth c) (depthOf r)

end

theorem depthOf_le {d : Nat} : ∀ {parts : List Condition}, (∀ p ∈ parts, p.depth ≤ d) →
    depthOf parts ≤ d
  | [], _ => Nat.zero_le d
  | p :: r, h => by
    rw [depthOf]
    exact Nat.max_le.2 ⟨h p (.head _), depthOf_le fun q hq => h q (.tail _ hq)⟩

/-- Conditions of one shape: how deep they are at most, and that all their nodes are proper. -/
structure Tidy (P : Condition → Prop) (d : Nat) : Prop where
  proper : ∀ {c n : Condition}, P c → Node n c → n.IsProper
  depth_le : ∀ {c : Condition}, P c → c.depth ≤ d

namespace Tidy

variable {P Q : Condition → Prop} {d : Nat}

theorem predicate : Tidy IsPredicate 1 where
  proper hc hn := by
    cases hc with
    | comparison h => cases hn; exact h
    | selection => cases hn; trivial
    | emptiness => cases hn; trivial
  depth_le hc := by cases hc <;> exact Nat.le_refl 1

theorem mayBeNegated (h : Tidy P d) (hP : ∀ {c}, P c → ∀ e, c ≠ .negated e) :
    Tidy (MayBeNegated P) (d + 1) where
  proper hc hn := by
    cases hc with
    | plain hc => exact h.proper hc hn
    | negated hc =>
      cases hn with
      | self =>
        exact hP hc
      | operand hn => exact h.proper hc hn
  depth_le hc := by
    cases hc with
    | plain hc => exact Nat.le_succ_of_le (h.depth_le hc)
    | negated hc => exact Nat.succ_le_succ (h.depth_le hc)

theorem mayBeJoined {k : Connective} (hpart : Tidy P d) (hwhole : Tidy Q (d + 1))
    (hP : ∀ parts, ¬P (.joined k parts)) : Tidy (MayBeJoined k P Q) (d + 1) where
  proper hc hn := by
    cases hc with
    | single hc => exact hwhole.proper hc hn
    | joined hlen hparts =>
      cases hn with
      | self =>
        refine ⟨hlen, fun p hp parts' hjoined => ?_⟩
        subst hjoined
        exact hP parts' (hparts _ hp)
      | part hp hn => exact hpart.proper (hparts _ hp) hn
  depth_le hc := by
    cases hc with
    | single hc => exact hwhole.depth_le hc
    | joined _ hparts =>
      exact Nat.succ_le_succ (depthOf_le fun p hp => hpart.depth_le (hparts p hp))

theorem mono {d' : Nat} (h : Tidy P d) (hd : d ≤ d') : Tidy P d' where
  proper := h.proper
  depth_le hc := Nat.le_trans (h.depth_le hc) hd

theorem atom : Tidy IsAtom 2 := predicate.mayBeNegated isPredicate_ne_negated

theorem disjunction : Tidy IsDisjunction 3 :=
  atom.mayBeJoined (predicate.mono (by decide)) fun _ hc => by
    cases hc with
    | plain hc => cases hc

theorem clause : Tidy IsClause 4 := disjunction.mayBeNegated isDisjunction_ne_negated

theorem conjunction : Tidy IsConjunction 5 :=
  clause.mayBeJoined (disjunction.mono (by decide)) fun _ hc => by
    cases hc with
    | plain hc =>
      cases hc with
      | single hc => cases hc

theorem flat : Tidy IsFlat 6 := conjunction.mayBeNegated isConjunction_ne_negated

end Tidy

/-- What is read is flat: a conjunction of disjunctions of predicates, where each of them may be
negated and may be missing. All its nodes are proper, and it is at most six nodes deep. -/
theorem flat_of_parse {s : String} (h : parse s = .ok c) :
    IsFlat c ∧ (∀ n, Node n c → n.IsProper) ∧ c.depth ≤ 6 := by
  unfold parse at h
  split at h
  · cases h
  · have hflat := isFlat_of_composite h
    exact ⟨hflat, fun _ hn => Tidy.flat.proper hflat hn, Tidy.flat.depth_le hflat⟩

/-- A condition six nodes deep. -/
def deepest : Condition :=
  .negated (.joined .and
    [.negated (.joined .or [.negated (.comparison .lessThan "AGE" (.int 18)),
      .emptiness .isEmpty "CITY"]), .selection .any "BRANDS" [.text "nike", .int 3]])

theorem flat_of_parse_deepest :
    parse ("!(!(!(lessThan(answer('AGE'), 18)) || isEmpty('CITY')) && " ++
        "anySelected('BRANDS', ['nike', 3]))") = .ok deepest ∧
      (IsFlat deepest ∧ (∀ n, Node n deepest → n.IsProper) ∧ deepest.depth ≤ 6) ∧
      deepest.depth = 6 := by
  have hparse : parse ("!(!(!(lessThan(answer('AGE'), 18)) || isEmpty('CITY')) && " ++
      "anySelected('BRANDS', ['nike', 3]))") = .ok deepest := by
    decide +kernel
  exact ⟨hparse, flat_of_parse hparse, rfl⟩

end Condition

end Questionnaire
