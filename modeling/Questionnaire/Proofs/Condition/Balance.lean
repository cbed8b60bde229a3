import Questionnaire.Proofs.Condition.Grammar
import Questionnaire.Proofs.Condition.Levels
import Questionnaire.Proofs.Condition.Lexing

/-!
# Balanced texts

A text that is read has closed strings and balanced parentheses, and outside of its strings it has
the marks of no connectives but those of its level (`Balanced`). That is so for the tokens of a
predicate (`balanced_of_predicate`), and each level keeps it (`balanced_of_negatable`,
`balanced_of_joinedBy`).

A scanner that gets to a balanced text goes through it and is behind it as it was in front: the one
for signs finds none in it (`piecesFrom_append`), and the one for the parenthesis that ends a
negation is in the same depth (`closedAtEnd?_append`).
-/

namespace Questionnaire.Condition

open Text

variable {ks ks' : List Connective} {k : Connective} {q : Char} {d e f : Nat}
  {a b s cs r rest : List Char} {c : Condition}

/-! ## Balanced texts -/

/-- A plain character: one that neither scanner takes notice of. -/
structure IsPlain (ks : List Connective) (c : Char) : Prop where
  quote : isQuote c = false
  opening : c ≠ '('
  closing : c ≠ ')'
  mark : ∀ k ∈ ks, c ≠ k.mark

/-- A kind of characters that has no quote, no parenthesis and no mark in it. -/
theorem isPlain_of {p : Char → Bool} {x : Char}
    (hp : [singleQuote, doubleQuote, '(', ')', '&', '|'].any p = false) (hx : p x = true) :
    IsPlain ks x := by
  simp only [List.any_cons, List.any_nil, Bool.or_false, Bool.or_eq_false_iff] at hp
  obtain ⟨hsingle, hdouble, hopening, hclosing, hand, hor⟩ := hp
  have hne {y : Char} (hy : p y = false) : x ≠ y := by
    rintro rfl
    rw [hx] at hy
    cases hy
  refine ⟨?_, hne hopening, hne hclosing, fun k _ => ?_⟩
  · simp [isQuote, hne hsingle, hne hdouble]
  · cases k with
    | and => exact hne hand
    | or => exact hne hor

/-- A text that leads from `d` open parentheses to `e`, in which all strings are closed and no mark
of the given connectives stands outside strings. -/
inductive Balanced (ks : List Connective) : Nat → List Char → Nat → Prop
  | nil {d : Nat} : Balanced ks d [] d
  | plain {c : Char} {r : List Char} {d e : Nat} : IsPlain ks c → Balanced ks d r e →
      Balanced ks d (c :: r) e
  | opening {r : List Char} {d e : Nat} : Balanced ks (d + 1) r e → Balanced ks d ('(' :: r) e
  | closing {r : List Char} {d e : Nat} : Balanced ks d r e → Balanced ks (d + 1) (')' :: r) e
  | string {q : Char} {s r : List Char} {d e : Nat} : isQuote q = true → InString q s →
      Balanced ks d r e → Balanced ks d (q :: (s ++ r)) e

namespace Balanced

theorem append (ha : Balanced ks d a e) (hb : Balanced ks e b f) : Balanced ks d (a ++ b) f := by
  induction ha with
  | nil => exact hb
  | plain hc _ ih => exact .plain hc (ih hb)
  | opening _ ih => exact .opening (ih hb)
  | closing _ ih => exact .closing (ih hb)
  | string hq hs _ ih =>
    rw [List.cons_append, List.append_assoc]
    exact .string hq hs (ih hb)

/-- More open parentheses in front stay open. -/
theorem deeper (h : Balanced ks d a e) : Balanced ks (d + 1) a (e + 1) := by
  induction h with
  | nil => exact .nil
  | plain hc _ ih => exact .plain hc ih
  | opening _ ih => exact .opening ih
  | closing _ ih => exact .closing ih
  | string hq hs _ ih => exact .string hq hs ih

theorem mono (h : Balanced ks d a e) (hks : ks' ⊆ ks) : Balanced ks' d a e := by
  induction h with
  | nil => exact .nil
  | plain hc _ ih =>
    exact .plain ⟨hc.quote, hc.opening, hc.closing, fun k hk => hc.mark k (hks hk)⟩ ih
  | opening _ ih => exact .opening ih
  | closing _ ih => exact .closing ih
  | string hq hs _ ih => exact .string hq hs ih

theorem of_plain : ∀ {w : List Char}, (∀ c ∈ w, IsPlain ks c) → Balanced ks d w d
  | [], _ => .nil
  | c :: _, h => .plain (h c (.head _)) (of_plain fun x hx => h x (.tail _ hx))

theorem of_opening (h : Balanced ks d ('(' :: r) e) : Balanced ks (d + 1) r e := by
  generalize hcs : '(' :: r = cs at h
  cases h with
  | nil => cases hcs
  | plain hc _ =>
    cases hcs
    exact absurd rfl hc.opening
  | opening h =>
    cases hcs
    exact h
  | closing _ => cases hcs
  | string hq _ _ =>
    rw [← (List.cons.inj hcs).1] at hq
    cases hq

theorem of_exclamation (h : Balanced ks d ('!' :: r) e) : Balanced ks d r e := by
  generalize hcs : '!' :: r = cs at h
  cases h with
  | nil => cases hcs
  | plain _ h =>
    cases hcs
    exact h
  | opening _ => cases hcs
  | closing _ => cases hcs
  | string hq _ _ =>
    rw [← (List.cons.inj hcs).1] at hq
    cases hq

theorem head_ne_mark (h : Balanced ks d (k.mark :: r) e) : k ∉ ks := by
  have hmark : k.mark ≠ '(' ∧ k.mark ≠ ')' ∧ isQuote k.mark = false := by cases k <;> decide
  intro hk
  generalize hx : k.mark = x at h hmark
  cases h with
  | plain hc => exact hc.mark k hk hx.symm
  | opening => exact hmark.1 rfl
  | closing => exact hmark.2.1 rfl
  | string hq => rw [hmark.2.2] at hq; cases hq

end Balanced

/-! ## Scanners on balanced texts -/

theorem piecesFrom_string (hq : q ≠ backslash) (hs : InString q s) :
    piecesFrom k.mark (some q) (s ++ rest) = s.foldr extendFirst (piecesFrom k.mark none rest) := by
  induction hs with
  | close =>
    rw [List.singleton_append, piecesFrom.eq_def]
    simp [hq]
  | escaped _ _ ih => simp [piecesFrom, ih]
  | @plain c s hc hbackslash _ ih =>
    rw [List.cons_append, piecesFrom.eq_def]
    simp [hc, hbackslash, ih]

theorem piecesFrom_cons {x : Char} (hx : isQuote x = false) (hsign : ¬k.sign <+: x :: r) :
    piecesFrom k.mark none (x :: r) = extendFirst x (piecesFrom k.mark none r) := by
  conv_lhs => unfold piecesFrom
  simp only [hx, Bool.false_eq_true, if_false]
  split
  · next a b d r' =>
    refine if_neg fun h => hsign ?_
    simp only [Bool.and_eq_true, beq_iff_eq] at h
    obtain ⟨⟨⟨rfl, rfl⟩, rfl⟩, rfl⟩ := h
    exact sign_prefix_iff.2 ⟨rfl, r', rfl⟩
  · rfl

/-- No sign is found in a balanced text, even if one follows. -/
theorem piecesFrom_append (h : Balanced ks d a e) (hk : k ∈ ks)
    (hrest : rest = [] ∨ k.sign <+: rest) :
    piecesFrom k.mark none (a ++ rest) = a.foldr extendFirst (piecesFrom k.mark none rest) := by
  induction h with
  | nil => rfl
  | @plain x r d e hx hr ih =>
    rw [List.cons_append, List.foldr_cons, ← ih]
    refine piecesFrom_cons hx.quote fun hsign => ?_
    obtain ⟨-, r', heq⟩ := sign_prefix_iff.1 hsign
    cases r with
    | nil =>
      rw [List.nil_append] at heq
      rcases hrest with rfl | hrest
      · cases heq
      · rw [heq] at hrest
        have := (sign_prefix_iff.1 hrest).1
        cases k <;> cases this
    | cons y r =>
      obtain ⟨rfl, -⟩ := List.cons.inj heq
      exact hr.head_ne_mark hk
  | opening _ ih =>
    rw [List.cons_append, List.foldr_cons, ← ih]
    exact piecesFrom_cons rfl fun hsign => nomatch (sign_prefix_iff.1 hsign).1
  | closing _ ih =>
    rw [List.cons_append, List.foldr_cons, ← ih]
    exact piecesFrom_cons rfl fun hsign => nomatch (sign_prefix_iff.1 hsign).1
  | @string q s r d e hq hs _ ih =>
    rw [List.cons_append, List.append_assoc, List.foldr_cons, List.foldr_append, ← ih,
      ← piecesFrom_string (ne_backslash_of_isQuote hq) hs]
    rw [piecesFrom.eq_def]
    simp [hq]

theorem Balanced.not_cut (h : Balanced ks d cs e) (hk : k ∈ ks) : ¬Cut k none cs := by
  have hpieces := piecesFrom_append h hk (.inl rfl)
  rw [List.append_nil] at hpieces
  rw [cut_iff, pieces, hpieces]
  simp [piecesFrom, Splits.foldr_extendFirst]

theorem closedAtEnd?_string (hq : q ≠ backslash) (hs : InString q s) :
    closedAtEnd? d (some q) (s ++ rest) = (closedAtEnd? d none rest).map (s ++ ·) := by
  induction hs with
  | close =>
    rw [List.singleton_append, closedAtEnd?.eq_def]
    simp [hq]
  | escaped _ _ ih => simp [closedAtEnd?, ih, Function.comp_def]
  | @plain c s hc hbackslash _ ih =>
    rw [List.cons_append, closedAtEnd?.eq_def]
    simp [hc, hbackslash, ih, Function.comp_def]

@[simp] theorem closedAtEnd?_opening : closedAtEnd? d none ('(' :: r) =
    (closedAtEnd? (d + 1) none r).map ('(' :: ·) := rfl

@[simp] theorem closedAtEnd?_closing : closedAtEnd? (d + 1) none (')' :: r) =
    (closedAtEnd? d none r).map (')' :: ·) := rfl

theorem closedAtEnd?_plain {x : Char} (hx : IsPlain ks x) :
    closedAtEnd? d none (x :: r) = (closedAtEnd? d none r).map (x :: ·) := by
  simp [closedAtEnd?, hx.quote, hx.opening, hx.closing]

theorem closedAtEnd?_quoted (hq : isQuote q = true) (hs : InString q s) :
    closedAtEnd? d none (q :: (s ++ rest)) = (closedAtEnd? d none rest).map (q :: s ++ ·) := by
  rw [closedAtEnd?.eq_def]
  simp [hq, closedAtEnd?_string (ne_backslash_of_isQuote hq) hs, Function.comp_def]

/-- Behind a balanced text the parenthesis that ends a negation is looked for as before. -/
theorem closedAtEnd?_append (h : Balanced ks d a e) :
    closedAtEnd? d none (a ++ rest) = (closedAtEnd? e none rest).map (a ++ ·) := by
  induction h with
  | nil => simp
  | plain hc _ ih => simp [closedAtEnd?_plain hc, ih, Function.comp_def]
  | opening _ ih => simp [ih, Function.comp_def]
  | closing _ ih => simp [ih, Function.comp_def]
  | string hq hs _ ih => simp [closedAtEnd?_quoted hq hs, ih, Function.comp_def]

/-- A negation does not end with a text that closes its parenthesis and goes on. -/
theorem closedAtEnd?_eq_none (h : Balanced ks (d + 1) a 0) (hrest : rest ≠ []) :
    closedAtEnd? d none (a ++ rest) = none := by
  generalize hf : d + 1 = f at h
  generalize he : 0 = e at h
  induction h generalizing d with
  | nil => omega
  | plain hc _ ih => simp [closedAtEnd?_plain hc, ih hf he]
  | opening _ ih => simp [ih (congrArg (· + 1) hf) he]
  | @closing r _ _ _ ih =>
    obtain rfl := Nat.succ.inj hf
    cases d with
    | zero =>
      have hne : (r ++ rest).isEmpty = false := by simp [hrest]
      rw [List.cons_append, closedAtEnd?.eq_def]
      simp [isQuote, hne, singleQuote, doubleQuote]
    | succ d => simp [ih rfl he]
  | string hq hs _ ih => simp [closedAtEnd?_quoted hq hs, ih hf he]

/-! ## What is read is balanced -/

/-- The depth to which tokens lead. -/
inductive Nested : Nat → List Token → Nat → Prop
  | nil {d : Nat} : Nested d [] d
  | opening {t : Token} {ts : List Token} {d e : Nat} : t.chars = ['('] → Nested (d + 1) ts e →
      Nested d (t :: ts) e
  | closing {t : Token} {ts : List Token} {d e : Nat} : t.chars = [')'] → Nested d ts e →
      Nested (d + 1) (t :: ts) e
  | other {t : Token} {ts : List Token} {d e : Nat} :
      t.kind ≠ .mark ∨ t.chars = ['['] ∨ t.chars = [']'] ∨ t.chars = [','] → Nested d ts e →
      Nested d (t :: ts) e

theorem Nested.append {ts us : List Token} (h : Nested d ts e) (h' : Nested e us f) :
    Nested d (ts ++ us) f := by
  induction h with
  | nil => exact h'
  | opening ht _ ih => exact .opening ht (ih h')
  | closing ht _ ih => exact .closing ht (ih h')
  | other ht _ ih => exact .other ht (ih h')

theorem Reference.nested {us : List Token} {v : String} (h : Reference us v) : Nested d us d := by
  cases h with
  | quoted hs => exact .other (.inl (by simp [hs])) .nil
  | answer ht _ ha hs hb =>
    exact .other (.inl (by simp [ht])) (.opening ha (.other (.inl (by simp [hs]))
      (.closing hb .nil)))

theorem LiteralToken.kind_ne {t : Token} {l : Literal} (h : LiteralToken t l) : t.kind ≠ .mark := by
  cases h with
  | text hkind => simp [hkind]
  | number hkind => simp [hkind]

theorem Literals.nested {us : List Token} {ls : List Literal} (h : Literals us ls) :
    Nested d us d := by
  induction h with
  | last ht hb => exact .other (.inl ht.kind_ne) (.other (.inr (.inr (.inl hb))) .nil)
  | more ht hs _ ih => exact .other (.inl ht.kind_ne) (.other (.inr (.inr (.inr hs))) ih)

theorem LiteralList.nested {us : List Token} {ls : List Literal} (h : LiteralList us ls) :
    Nested d us d := by
  cases h with
  | empty ha hb => exact .other (.inr (.inl ha)) (.other (.inr (.inr (.inl hb))) .nil)
  | filled ha _ hls => exact .other (.inr (.inl ha)) hls.nested

theorem Arguments.nested {name : PredicateName} {us : List Token} (h : Arguments name us c) :
    Nested d us d := by
  cases h with
  | comparison hv hs ht _ =>
    exact hv.nested.append (.other (.inr (.inr (.inr hs))) (.other (.inl ht.kind_ne) .nil))
  | selection hv hs hls => exact hv.nested.append (.other (.inr (.inr (.inr hs))) hls.nested)
  | emptiness hv => exact hv.nested

theorem Derives.nested {ts : List Token} (h : Derives ts c) : Nested 0 ts 0 := by
  cases h with
  | predicate hn _ ha hus hb =>
    exact .other (.inl (by simp [hn])) (.opening ha (hus.nested.append (.closing hb .nil)))

/-- A token other than a parenthesis keeps the depth. -/
theorem Token.IsLexeme.balanced {t : Token} (h : t.IsLexeme)
    (ht : t.kind ≠ .mark ∨ t.chars = ['['] ∨ t.chars = [']'] ∨ t.chars = [',']) :
    Balanced ks d t.chars d := by
  cases h with
  | @string q s hq hs =>
    have hstring : Balanced ks d (q :: (s ++ [])) d := .string hq hs .nil
    rwa [List.append_nil] at hstring
  | number hn =>
    refine .of_plain (hn.forall_mem (fun c hc => isPlain_of (by decide +kernel) hc) ?_ ?_)
    · exact isPlain_of (p := (· == '.')) (by decide) rfl
    · exact isPlain_of (p := (· == '-')) (by decide) rfl
  | name hstart hr =>
    exact .of_plain (List.forall_mem_cons.2 ⟨isPlain_of (by decide) hstart,
      fun d hd => isPlain_of (p := isNameChar) (by decide) (hr d hd)⟩)
  | @mark c hc =>
    have hbracket : ['[', ']', ','].contains c = true := by
      rcases ht with hne | hchars | hchars | hchars
      · exact absurd rfl hne
      all_goals
        cases hchars
        rfl
    exact .of_plain (List.forall_mem_singleton.2 (isPlain_of (by decide) hbracket))

theorem balanced_of_lexed {ts : List Token} (h : Lexed cs ts) (hts : Nested d ts e) :
    Balanced ks d cs e := by
  induction h generalizing d with
  | nil =>
    cases hts
    exact .nil
  | blank _ hc _ ih => exact .plain (isPlain_of (by decide) hc) (ih hts)
  | token ht _ ih =>
    obtain ⟨hcs, hlexeme⟩ := token?_sound ht
    rw [hcs]
    cases hts with
    | opening hchars hts => rw [hchars]; exact .opening (ih hts)
    | closing hchars hts => rw [hchars]; exact .closing (ih hts)
    | other hother hts => exact (hlexeme.balanced hother).append (ih hts)

/-- A predicate's text has no mark of a connective outside strings. -/
theorem balanced_of_predicate (h : predicate cs = .ok c) : Balanced ks 0 cs 0 := by
  obtain ⟨ts, hcs, hts⟩ := bind_eq_ok_iff.1 h
  exact balanced_of_lexed (tokens_eq_ok_iff.1 hcs).1 (ofTokens_eq_ok_iff.1 hts).nested

section Levels

variable {inner part whole : List Char → Except ParseError Condition}

theorem Balanced.of_blank {w : List Char} (hw : ∀ c ∈ w, isBlank c = true) : Balanced ks d w d :=
  .of_plain fun c hc => isPlain_of (by decide) (hw c hc)

theorem Balanced.of_trim (h : Balanced ks 0 (trim cs) 0) : Balanced ks 0 cs 0 := by
  obtain ⟨w, w', hcs, hw, hw'⟩ := exists_blanks cs
  rw [hcs]
  exact ((Balanced.of_blank hw).append h).append (.of_blank hw')

/-- What a negation wraps is balanced, and so is the negation. -/
theorem Balanced.wrapped (h : Balanced ks 0 cs 0) :
    Balanced ks 0 ('!' :: '(' :: (cs ++ [')'])) 0 :=
  .plain (isPlain_of (p := (· == '!')) (by decide) rfl)
    (.opening (h.deeper.append (.closing .nil)))

theorem Balanced.of_unwrap (h : Balanced ks 0 (unwrap cs).2 0) : Balanced ks 0 cs 0 := by
  have hwithin (fuel : Nat) : ∀ odd cs, Balanced ks 0 (unwrapWithin fuel odd cs).2 0 →
      Balanced ks 0 cs 0 := by
    induction fuel with
    | zero => exact fun _ _ h => h
    | succ fuel ih =>
      intro odd cs h
      unfold unwrapWithin at h
      split at h
      · next inner hinner =>
        rw [insideNegation?_eq_some hinner]
        exact (ih _ _ h).of_trim.wrapped
      · exact h
  exact hwithin _ _ _ h

theorem balanced_of_negatable (hinner : ∀ {cs c}, inner cs = .ok c → Balanced ks 0 cs 0)
    (h : negatable inner cs = .ok c) : Balanced ks 0 cs 0 := by
  obtain ⟨-, e, he, -⟩ := negatable_eq_ok_iff.1 h
  exact (hinner he).of_unwrap.of_trim

theorem isPlain_mark (hk : k ∉ ks) : IsPlain ks k.mark where
  quote := by cases k <;> rfl
  opening := by cases k <;> decide
  closing := by cases k <;> decide
  mark k' hk' hmark := by
    have heq : k = k' := by
      cases k <;> cases k' <;> first | rfl | cases hmark
    exact hk (heq ▸ hk')

theorem Balanced.intercalate (hk : k ∉ ks) : ∀ {ps : List (List Char)},
    (∀ p ∈ ps, Balanced ks 0 p 0) → Balanced ks 0 (k.sign.intercalate ps) 0
  | [], _ => .nil
  | [p], h => by simpa using h p (.head _)
  | p :: p' :: ps, h => by
    have hblank : IsPlain ks ' ' := isPlain_of (p := isBlank) (by decide) rfl
    have hsign : Balanced ks 0 k.sign 0 :=
      .plain hblank (.plain (isPlain_mark hk) (.plain (isPlain_mark hk) (.plain hblank .nil)))
    rw [List.intercalate_cons_cons]
    exact ((h p (.head _)).append hsign).append
      (Balanced.intercalate hk fun x hx => h x (.tail _ hx))

theorem balanced_of_joinedBy (hk : k ∉ ks) (hpart : ∀ {cs c}, part cs = .ok c → Balanced ks 0 cs 0)
    (hwhole : ∀ {cs c}, whole cs = .ok c → Balanced ks 0 cs 0)
    (h : joinedBy k part whole cs = .ok c) : Balanced ks 0 cs 0 := by
  by_cases hcut : Cut k none cs
  · obtain ⟨parts, -, hall⟩ := (joinedBy_eq_ok_iff hcut).1 h
    rw [← intercalate_pieces k cs]
    refine .intercalate hk fun p hp => ?_
    obtain ⟨c, hc⟩ := (exists_of_forall₂ hall).1 p hp
    exact hpart hc
  · rw [joinedBy_of_not_cut hcut] at h
    exact hwhole h

end Levels

theorem balanced_of_atom (h : atom cs = .ok c) : Balanced ks 0 cs 0 :=
  balanced_of_negatable balanced_of_predicate h

theorem balanced_of_clause (h : clause cs = .ok c) : Balanced [.and] 0 cs 0 :=
  balanced_of_negatable
    (balanced_of_joinedBy (by decide) balanced_of_atom balanced_of_predicate) h

theorem balanced_of_composite (h : composite cs = .ok c) : Balanced [] 0 cs 0 := by
  rw [composite_eq_conjunction] at h
  refine balanced_of_negatable (balanced_of_joinedBy (by decide) ?_ ?_) h
  · exact fun h => (balanced_of_clause h).mono (List.nil_subset _)
  · exact balanced_of_joinedBy (by decide) balanced_of_atom balanced_of_predicate

end Questionnaire.Condition
