import Questionnaire.Condition.Parser

/-!
# The grammar of predicates

Which sequences of tokens are predicates, and which predicates they are, told without the order in
which they are read: a reference (`Reference`), a literal (`Literal.Token`), a list of literals
(`LiteralList`), the arguments of a predicate (`Arguments`) and a predicate (`Derives`). What is read
off the tokens is what the grammar derives from them, for each part (`takeReference_eq_ok_iff` and
those after it) and for the whole (`ofTokens_eq_ok_iff`).

A mark is known by its text alone. So a list of literals is taken to be empty if the text behind its
opening bracket is a closing one, whatever the kind of the token.
-/

namespace Questionnaire.Condition

variable {ts us r : List Token} {v : String} {l : Literal} {ls : List Literal} {c : Condition}

theorem bind_eq_ok_iff {ε α β : Type} {x : Except ε α} {f : α → Except ε β} {b : β} :
    (x >>= f) = .ok b ↔ ∃ a, x = .ok a ∧ f a = .ok b := by
  cases x with
  | error e => simp [bind, Except.bind]
  | ok a => simp [bind, Except.bind]

/-! ## What the tokens derive -/

/-- The tokens of a reference, and the variable that it names. -/
inductive Reference : List Token → String → Prop
  | quoted {s : Token} : s.kind = .string → Reference [s] (unquote s.chars)
  | answer {t a s b : Token} : t.kind = .name → t.text = "answer" → a.chars = ['('] →
      s.kind = .string → b.chars = [')'] → Reference [t, a, s, b] (unquote s.chars)

/-- The token of a literal. -/
inductive LiteralToken : Token → Literal → Prop
  | text {t : Token} : t.kind = .string → LiteralToken t (.text (unquote t.chars))
  | number {t : Token} : t.kind = .number → LiteralToken t (numberLiteral t.chars)

/-- The tokens of the literals of a list with the bracket that closes it. -/
inductive Literals : List Token → List Literal → Prop
  | last {t b : Token} {l : Literal} : LiteralToken t l → b.chars = [']'] → Literals [t, b] [l]
  | more {t s : Token} {l : Literal} {us : List Token} {ls : List Literal} : LiteralToken t l →
      s.chars = [','] → Literals us ls → Literals (t :: s :: us) (l :: ls)

/-- The tokens of a list of literals. -/
inductive LiteralList : List Token → List Literal → Prop
  | empty {a b : Token} : a.chars = ['['] → b.chars = [']'] → LiteralList [a, b] []
  | filled {a t : Token} {us : List Token} {ls : List Literal} : a.chars = ['['] →
      t.chars ≠ [']'] → Literals (t :: us) ls → LiteralList (a :: t :: us) ls

/-- The literal that a comparison has for the literal of its text. -/
def comparedLiteral (test : Comparison) (l : Literal) : Except ParseError Literal :=
  if test.isNumeric then numericLiteral test l else .ok l

/-- The tokens of the arguments of a predicate. -/
inductive Arguments : PredicateName → List Token → Condition → Prop
  | comparison {test : Comparison} {us : List Token} {v : String} {s t : Token} {l l' : Literal} :
      Reference us v → s.chars = [','] → LiteralToken t l → comparedLiteral test l = .ok l' →
      Arguments (.comparison test) (us ++ [s, t]) (.comparison test v l')
  | selection {test : SelectionTest} {us ws : List Token} {v : String} {s : Token}
      {ls : List Literal} : Reference us v → s.chars = [','] → LiteralList ws ls →
      Arguments (.selection test) (us ++ s :: ws) (.selection test v ls)
  | emptiness {test : EmptinessTest} {us : List Token} {v : String} :
      Reference us v → Arguments (.emptiness test) us (.emptiness test v)

/-- The tokens of a predicate. -/
inductive Derives : List Token → Condition → Prop
  | predicate {n a b : Token} {us : List Token} {name : PredicateName} {c : Condition} :
      n.kind = .name → PredicateName.ofName? n.text = some name → a.chars = ['('] →
      Arguments name us c → b.chars = [')'] → Derives (n :: a :: (us ++ [b])) c

theorem ofName?_name (name : PredicateName) : PredicateName.ofName? name.name = some name := by
  cases name with
  | comparison test => cases test <;> decide
  | selection test => cases test <;> decide
  | emptiness test => cases test <;> decide

/-! ## What is read -/

theorem expectMark_eq_ok_iff {mark : Char} :
    expectMark mark ts = .ok r ↔ ∃ t, ts = t :: r ∧ t.chars = [mark] := by
  cases ts with
  | nil => simp [expectMark]
  | cons t ts =>
    by_cases ht : t.chars = [mark]
    · simp only [expectMark, ht, beq_self_eq_true, if_true, Except.ok.injEq, List.cons.injEq]
      exact ⟨fun h => ⟨t, ⟨rfl, h⟩, ht⟩, fun ⟨_, ⟨_, h⟩, _⟩ => h⟩
    · simp only [expectMark, beq_iff_eq, ht, if_false, reduceCtorEq, false_iff, List.cons.injEq]
      rintro ⟨_, ⟨rfl, -⟩, hmark⟩
      exact ht hmark

theorem takeReference_eq_ok_iff :
    takeReference ts = .ok (v, r) ↔ ∃ us, ts = us ++ r ∧ Reference us v := by
  constructor
  · intro h
    unfold takeReference at h
    split at h
    · cases h
    · next t ts =>
      split at h
      · next hkind =>
        cases h
        exact ⟨[t], rfl, .quoted (eq_of_beq hkind)⟩
      · split at h
        · next hname =>
          simp only [Bool.and_eq_true, beq_iff_eq] at hname
          rw [bind_eq_ok_iff] at h
          obtain ⟨r₁, hopen, h⟩ := h
          obtain ⟨a, rfl, ha⟩ := expectMark_eq_ok_iff.1 hopen
          split at h
          · cases h
          · next s r₂ =>
            split at h
            · next hs =>
              rw [bind_eq_ok_iff] at h
              obtain ⟨r₃, hclose, h⟩ := h
              obtain ⟨b, rfl, hb⟩ := expectMark_eq_ok_iff.1 hclose
              cases h
              exact ⟨[t, a, s, b], rfl, .answer hname.1 hname.2 ha (eq_of_beq hs) hb⟩
            · cases h
        · cases h
  · rintro ⟨us, rfl, hus⟩
    cases hus with
    | quoted hs => simp [takeReference, hs]
    | answer ht htext ha hs hb =>
      simp [takeReference, ht, htext, expectMark, ha, hs, hb, bind, Except.bind]

theorem takeLiteral_eq_ok_iff :
    takeLiteral ts = .ok (l, r) ↔ ∃ t, ts = t :: r ∧ LiteralToken t l := by
  constructor
  · intro h
    unfold takeLiteral at h
    split at h
    · cases h
    · next t ts =>
      split at h
      · next hkind =>
        cases h
        exact ⟨t, rfl, .text hkind⟩
      · next hkind =>
        cases h
        exact ⟨t, rfl, .number hkind⟩
      · cases h
  · rintro ⟨t, rfl, ht⟩
    cases ht with
    | text hkind => simp [takeLiteral, hkind]
    | number hkind => simp [takeLiteral, hkind]

theorem literals_of_takeLiteralsWithin : ∀ {fuel : Nat} {ts r : List Token} {ls : List Literal},
    takeLiteralsWithin fuel ts = .ok (ls, r) → ∃ us, ts = us ++ r ∧ Literals us ls
  | fuel + 1, ts, r, ls, h => by
    rw [takeLiteralsWithin, bind_eq_ok_iff] at h
    obtain ⟨⟨l, r₁⟩, hl, h⟩ := h
    obtain ⟨t, rfl, ht⟩ := takeLiteral_eq_ok_iff.1 hl
    dsimp only at h
    split at h
    · cases h
    · next b r₂ =>
      split at h
      · next hb =>
        cases h
        exact ⟨[t, b], rfl, .last ht (eq_of_beq hb)⟩
      · rw [bind_eq_ok_iff] at h
        obtain ⟨r₃, hcomma, h⟩ := h
        obtain ⟨s, heq, hs⟩ := expectMark_eq_ok_iff.1 hcomma
        rw [bind_eq_ok_iff] at h
        obtain ⟨⟨ls, r₄⟩, hrest, h⟩ := h
        obtain ⟨us, rfl, hus⟩ := literals_of_takeLiteralsWithin hrest
        cases h
        rw [heq]
        exact ⟨t :: s :: us, rfl, .more ht hs hus⟩

theorem takeLiteralsWithin_of_literals (h : Literals us ls) :
    ∀ fuel, us.length ≤ fuel → takeLiteralsWithin fuel (us ++ r) = .ok (ls, r) := by
  induction h with
  | @last t b l ht hb =>
    intro fuel hfuel
    obtain ⟨fuel, rfl⟩ : ∃ n, fuel = n + 1 := ⟨fuel - 1, by simp at hfuel; omega⟩
    have hl : takeLiteral (t :: b :: r) = .ok (l, b :: r) := takeLiteral_eq_ok_iff.2 ⟨t, rfl, ht⟩
    simp [takeLiteralsWithin, hl, hb, bind, Except.bind]
  | @more t s l us ls ht hs _ ih =>
    intro fuel hfuel
    obtain ⟨fuel, rfl⟩ : ∃ n, fuel = n + 1 := ⟨fuel - 1, by simp at hfuel; omega⟩
    have hl : takeLiteral (t :: s :: (us ++ r)) = .ok (l, s :: (us ++ r)) :=
      takeLiteral_eq_ok_iff.2 ⟨t, rfl, ht⟩
    have hrest := ih fuel (by simp at hfuel; omega)
    simp [takeLiteralsWithin, hl, hs, expectMark, hrest, bind, Except.bind]

theorem takeLiteralList_eq_ok_iff :
    takeLiteralList ts = .ok (ls, r) ↔ ∃ us, ts = us ++ r ∧ LiteralList us ls := by
  constructor
  · intro h
    unfold takeLiteralList at h
    rw [bind_eq_ok_iff] at h
    obtain ⟨r₁, hopen, h⟩ := h
    obtain ⟨a, rfl, ha⟩ := expectMark_eq_ok_iff.1 hopen
    split at h
    · next b r₂ =>
      split at h
      · next hb =>
        cases h
        exact ⟨[a, b], rfl, .empty ha (eq_of_beq hb)⟩
      · next hb =>
        obtain ⟨us, heq, hus⟩ := literals_of_takeLiteralsWithin h
        have hne : b.chars ≠ [']'] := by simpa using hb
        cases hus with
        | last ht hclose =>
          cases heq
          exact ⟨_, rfl, .filled ha hne (.last ht hclose)⟩
        | more ht hs hrest =>
          cases heq
          exact ⟨_, rfl, .filled ha hne (.more ht hs hrest)⟩
    · obtain ⟨us, heq, hus⟩ := literals_of_takeLiteralsWithin h
      cases hus <;> cases heq
  · rintro ⟨us, rfl, hus⟩
    cases hus with
    | empty ha hb => simp [takeLiteralList, expectMark, ha, hb, bind, Except.bind]
    | @filled a t us ls ha ht hus =>
      have hlist : takeLiteralsWithin ((us ++ r).length + 1) (t :: (us ++ r)) = .ok (ls, r) :=
        takeLiteralsWithin_of_literals hus _ (by simp)
      simpa [takeLiteralList, expectMark, ha, ht, bind, Except.bind] using hlist

theorem takeArguments_comparison (test : Comparison) (ts : List Token) :
    takeArguments (.comparison test) ts = (do
      let (v, r) ← takeReference ts
      let r ← expectMark ',' r
      let (l, r) ← takeLiteral r
      let l ← comparedLiteral test l
      .ok (.comparison test v l, r)) := by
  simp only [takeArguments, comparedLiteral]
  refine bind_congr fun _ => bind_congr fun _ => bind_congr fun _ => ?_
  split <;> rfl

theorem takeArguments_eq_ok_iff {name : PredicateName} :
    takeArguments name ts = .ok (c, r) ↔ ∃ us, ts = us ++ r ∧ Arguments name us c := by
  constructor
  · intro h
    cases name with
    | comparison test =>
      rw [takeArguments_comparison, bind_eq_ok_iff] at h
      obtain ⟨⟨v, r₁⟩, hv, h⟩ := h
      obtain ⟨us, rfl, hus⟩ := takeReference_eq_ok_iff.1 hv
      rw [bind_eq_ok_iff] at h
      obtain ⟨r₂, hcomma, h⟩ := h
      obtain ⟨s, rfl, hs⟩ := expectMark_eq_ok_iff.1 hcomma
      rw [bind_eq_ok_iff] at h
      obtain ⟨⟨l, r₃⟩, hl, h⟩ := h
      obtain ⟨t, rfl, ht⟩ := takeLiteral_eq_ok_iff.1 hl
      rw [bind_eq_ok_iff] at h
      obtain ⟨l', hl', h⟩ := h
      cases h
      exact ⟨us ++ [s, t], by simp, .comparison hus hs ht hl'⟩
    | selection test =>
      rw [takeArguments, bind_eq_ok_iff] at h
      obtain ⟨⟨v, r₁⟩, hv, h⟩ := h
      obtain ⟨us, rfl, hus⟩ := takeReference_eq_ok_iff.1 hv
      rw [bind_eq_ok_iff] at h
      obtain ⟨r₂, hcomma, h⟩ := h
      obtain ⟨s, rfl, hs⟩ := expectMark_eq_ok_iff.1 hcomma
      rw [bind_eq_ok_iff] at h
      obtain ⟨⟨ls, r₃⟩, hls, h⟩ := h
      obtain ⟨ws, rfl, hws⟩ := takeLiteralList_eq_ok_iff.1 hls
      cases h
      exact ⟨us ++ s :: ws, by simp, .selection hus hs hws⟩
    | emptiness test =>
      rw [takeArguments, bind_eq_ok_iff] at h
      obtain ⟨⟨v, r₁⟩, hv, h⟩ := h
      obtain ⟨us, rfl, hus⟩ := takeReference_eq_ok_iff.1 hv
      cases h
      exact ⟨us, rfl, .emptiness hus⟩
  · rintro ⟨us, rfl, hus⟩
    cases hus with
    | @comparison test us v s t l l' hv hs ht hl' =>
      have href : takeReference (us ++ [s, t] ++ r) = .ok (v, s :: t :: r) :=
        takeReference_eq_ok_iff.2 ⟨us, by simp, hv⟩
      have hlit : takeLiteral (t :: r) = .ok (l, r) := takeLiteral_eq_ok_iff.2 ⟨t, rfl, ht⟩
      simp only [takeArguments_comparison, bind_eq_ok_iff]
      exact ⟨_, href, _, expectMark_eq_ok_iff.2 ⟨s, rfl, hs⟩, _, hlit, l', hl', rfl⟩
    | @selection test us ws v s ls hv hs hls =>
      have href : takeReference (us ++ s :: ws ++ r) = .ok (v, s :: (ws ++ r)) :=
        takeReference_eq_ok_iff.2 ⟨us, by simp, hv⟩
      have hlist : takeLiteralList (ws ++ r) = .ok (ls, r) :=
        takeLiteralList_eq_ok_iff.2 ⟨ws, rfl, hls⟩
      simp only [takeArguments, bind_eq_ok_iff]
      exact ⟨_, href, _, expectMark_eq_ok_iff.2 ⟨s, rfl, hs⟩, _, hlist, rfl⟩
    | @emptiness test us v hv =>
      have href : takeReference (us ++ r) = .ok (v, r) := takeReference_eq_ok_iff.2 ⟨us, rfl, hv⟩
      simp only [takeArguments, bind_eq_ok_iff]
      exact ⟨_, href, rfl⟩

/-- A sequence of tokens is read as a predicate exactly if the grammar derives that from it. -/
theorem ofTokens_eq_ok_iff : ofTokens ts = .ok c ↔ Derives ts c := by
  constructor
  · intro h
    unfold ofTokens at h
    split at h
    · cases h
    · next n r₁ =>
      split at h
      · next hkind =>
        rw [bind_eq_ok_iff] at h
        obtain ⟨r₂, hopen, h⟩ := h
        obtain ⟨a, rfl, ha⟩ := expectMark_eq_ok_iff.1 hopen
        split at h
        · cases h
        · next name hname =>
          rw [bind_eq_ok_iff] at h
          obtain ⟨⟨c', r₃⟩, hc, h⟩ := h
          obtain ⟨us, rfl, hus⟩ := takeArguments_eq_ok_iff.1 hc
          rw [bind_eq_ok_iff] at h
          obtain ⟨r₄, hclose, h⟩ := h
          obtain ⟨b, rfl, hb⟩ := expectMark_eq_ok_iff.1 hclose
          split at h
          · next hend =>
            cases h
            rw [List.isEmpty_iff.1 hend]
            exact .predicate (eq_of_beq hkind) hname ha hus hb
          · cases h
      · cases h
  · intro h
    cases h with
    | @predicate n a b us name _ hkind hname ha hus hb =>
      have hargs : takeArguments name (us ++ [b]) = .ok (c, [b]) :=
        takeArguments_eq_ok_iff.2 ⟨us, rfl, hus⟩
      simp [ofTokens, hkind, hname, expectMark, ha, hargs, hb, bind, Except.bind]

end Questionnaire.Condition
