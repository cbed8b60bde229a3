import Questionnaire.Proofs.Condition.Composing
import Questionnaire.Proofs.Condition.Lexemes

/-!
# The forms of predicates

A predicate is a text of one of a few forms with blanks anywhere around its words (`PredicateForm`).
The forms are told on the words as written: what a string spells (`Spells`), how a number is read
(`LiteralForm`), which words are a reference (`ReferenceForm`), and which texts count as the number
that two numeric tests ask for (`ComparedForm`).

From the words of a form the grammar derives the same predicate, and none can run into the next one,
so they are the tokens that the tokenizer finds (`PredicateForm.exists_derives`). Conversely the
words of the tokens that the grammar derives a predicate from are of its form (`Derives.form`). So
exactly the texts of these forms are read, and all that is left out of them are blanks outside
strings (`predicate_accepts_exactly`). What is read as a predicate is read so as a condition
(`parse_of_predicate`).
-/

namespace Questionnaire.Condition

open Text

variable {q : Char} {cs n s u w : List Char} {ns ws : List (List Char)} {t : Token}
  {ts us : List Token} {v : String} {l l' : Literal} {ls : List Literal} {test : Comparison}
  {c : Condition}

/-! ## Forms -/

/-- What stands in a string behind its opening quote, and the text that it spells: the backslashes
that take a character are left out. -/
inductive Spells (q : Char) : List Char → List Char → Prop
  | close : Spells q [q] []
  | escaped {d : Char} {s u : List Char} : d ≠ '\n' → Spells q s u →
      Spells q (backslash :: d :: s) (d :: u)
  | plain {c : Char} {s u : List Char} : c ≠ q → c ≠ backslash → Spells q s u →
      Spells q (c :: s) (c :: u)

/-- The word of a string, and its text. -/
inductive StringForm : List Char → String → Prop
  | quoted {q : Char} {s u : List Char} : isQuote q = true → Spells q s u →
      StringForm (q :: s) (String.ofList u)

/-- The word of a literal, and what it stands for. A number is the binary number that its word is
read as; without a point in the word it is an integer, if that number is one. -/
inductive LiteralForm : List Char → Literal → Prop
  | text {w : List Char} {s : String} : StringForm w s → LiteralForm w (.text s)
  | int {w : List Char} {x : Binary64} {i : Int} : Binary64.Numeral w → '.' ∉ w →
      Binary64.ofChars? w = some x → x.toInt? = some i → LiteralForm w (.int i)
  | float {w : List Char} {x : Binary64} : Binary64.Numeral w → Binary64.ofChars? w = some x →
      '.' ∈ w ∨ x.toInt? = none → LiteralForm w (.float x)

/-- The word of the literal that a test compares with: the text of a string counts as a number for a
numeric test, and must be one. -/
inductive ComparedForm (test : Comparison) : List Char → Literal → Prop
  | literal {w : List Char} {l : Literal} : LiteralForm w l →
      (test.isNumeric = true → l.isNumber = true) → ComparedForm test w l
  | converted {w : List Char} {s : String} {x : Binary64} : test.isNumeric = true →
      StringForm w s → Binary64.ofText? s = some x → ComparedForm test w (.float x)

/-- The words of a reference, and the variable that it names. -/
inductive ReferenceForm : List (List Char) → String → Prop
  | quoted {w : List Char} {v : String} : StringForm w v → ReferenceForm [w] v
  | answer {w : List Char} {v : String} : StringForm w v →
      ReferenceForm ["answer".toList, ['('], w, [')']] v

/-- The words of a list of literals: a comma stands between each two. -/
inductive ListForm : List (List Char) → List Literal → Prop
  | list {ns : List (List Char)} {ls : List Literal} : List.Forall₂ LiteralForm ns ls →
      ListForm (['['] :: (ns.intersperse [','] ++ [[']']])) ls

/-- The words of a predicate, and the condition that it is. -/
inductive PredicateForm : List (List Char) → Condition → Prop
  | comparison {test : Comparison} {rs : List (List Char)} {w : List Char} {v : String}
      {l : Literal} : ReferenceForm rs v → ComparedForm test w l →
      PredicateForm (test.name.toList :: ['('] :: (rs ++ [[','], w, [')']])) (.comparison test v l)
  | selection {test : SelectionTest} {rs ws : List (List Char)} {v : String} {ls : List Literal} :
      ReferenceForm rs v → ListForm ws ls →
      PredicateForm (test.name.toList :: ['('] :: (rs ++ [','] :: (ws ++ [[')']])))
        (.selection test v ls)
  | emptiness {test : EmptinessTest} {rs : List (List Char)} {v : String} : ReferenceForm rs v →
      PredicateForm (test.name.toList :: ['('] :: (rs ++ [[')']])) (.emptiness test v)

/-! ## Words and tokens -/

theorem InString.ne_nil (h : InString q s) : s ≠ [] := by
  cases h <;> exact List.cons_ne_nil _ _

/-- A character that is taken by a backslash is spelled without it. -/
theorem unescape_escaped {d : Char} (hd : d ≠ '\n') (hs : s ≠ []) :
    unescape (backslash :: d :: s).dropLast = d :: unescape s.dropLast := by
  rw [List.dropLast_cons_of_ne_nil (List.cons_ne_nil _ _), List.dropLast_cons_of_ne_nil hs]
  simp [unescape, hd]

theorem unescape_plain {c : Char} (hc : c ≠ backslash) (hs : s ≠ []) :
    unescape (c :: s).dropLast = c :: unescape s.dropLast := by
  rw [List.dropLast_cons_of_ne_nil hs, unescape.eq_def]
  simp [hc]

theorem spells_iff : Spells q s u ↔ InString q s ∧ unescape s.dropLast = u := by
  constructor
  · intro h
    induction h with
    | close => exact ⟨.close, rfl⟩
    | escaped hd _ ih =>
      obtain ⟨hs, rfl⟩ := ih
      exact ⟨.escaped hd hs, unescape_escaped hd hs.ne_nil⟩
    | plain hc hbackslash _ ih =>
      obtain ⟨hs, rfl⟩ := ih
      exact ⟨.plain hc hbackslash hs, unescape_plain hbackslash hs.ne_nil⟩
  · rintro ⟨h, rfl⟩
    induction h with
    | close => exact .close
    | escaped hd hs ih =>
      rw [unescape_escaped hd hs.ne_nil]
      exact .escaped hd ih
    | plain hc hbackslash hs ih =>
      rw [unescape_plain hbackslash hs.ne_nil]
      exact .plain hc hbackslash ih

theorem stringForm_iff :
    StringForm w v ↔ (⟨.string, w⟩ : Token).IsLexeme ∧ unquote w = v := by
  constructor
  · rintro ⟨hq, hs⟩
    obtain ⟨hstring, rfl⟩ := spells_iff.1 hs
    exact ⟨.string hq hstring, rfl⟩
  · rintro ⟨h, rfl⟩
    cases h with
    | string hq hs => exact .quoted hq (spells_iff.2 ⟨hs, rfl⟩)

/-- The literal of a number by the binary number that its word is read as. -/
theorem numberLiteral_eq {x : Binary64} (hx : Binary64.ofChars? w = some x) :
    numberLiteral w = if '.' ∈ w then .float x else (x.toInt?.map .int).getD (.float x) := by
  simp only [numberLiteral, hx, Option.getD_some, List.contains_iff_mem]
  split
  · rfl
  · cases x.toInt? <;> rfl

theorem literalForm_iff : LiteralForm w l ↔ ∃ t : Token, t.chars = w ∧ t.IsLexeme ∧
    LiteralToken t l := by
  constructor
  · intro h
    cases h with
    | text hs =>
      obtain ⟨hlexeme, rfl⟩ := stringForm_iff.1 hs
      exact ⟨⟨.string, w⟩, rfl, hlexeme, .text rfl⟩
    | int hn hpoint hx hi =>
      have htoken : LiteralToken ⟨.number, w⟩ (numberLiteral w) := .number rfl
      rw [numberLiteral_eq hx, if_neg hpoint, hi] at htoken
      exact ⟨⟨.number, w⟩, rfl, .number hn, htoken⟩
    | float hn hx hor =>
      have htoken : LiteralToken ⟨.number, w⟩ (numberLiteral w) := .number rfl
      rw [numberLiteral_eq hx] at htoken
      refine ⟨⟨.number, w⟩, rfl, .number hn, ?_⟩
      rcases hor with hpoint | hnone
      · rwa [if_pos hpoint] at htoken
      · rwa [hnone, Option.map_none, Option.getD_none, ite_self] at htoken
  · rintro ⟨⟨kind, chars⟩, rfl, hlexeme, ht⟩
    cases ht with
    | text hkind =>
      obtain rfl : kind = .string := hkind
      exact .text (stringForm_iff.2 ⟨hlexeme, rfl⟩)
    | number hkind =>
      obtain rfl : kind = .number := hkind
      cases hlexeme with
      | number hn =>
        obtain ⟨x, hx⟩ := Binary64.exists_ofChars?_of_numeral hn
        rw [numberLiteral_eq hx]
        split
        · next hpoint => exact .float hn hx (.inl hpoint)
        · next hpoint =>
          cases hi : x.toInt? with
          | none => exact .float hn hx (.inr hi)
          | some i => exact .int hn hpoint hx hi

theorem comparedForm_iff :
    ComparedForm test w l' ↔ ∃ l, LiteralForm w l ∧ comparedLiteral test l = .ok l' := by
  constructor
  · intro h
    cases h with
    | literal hl hnumber => exact ⟨l', hl, comparedLiteral_eq_ok_iff.2 (.inl ⟨rfl, hnumber⟩)⟩
    | converted htest hs hx =>
      exact ⟨_, .text hs, comparedLiteral_eq_ok_iff.2 (.inr ⟨htest, _, _, rfl, hx, rfl⟩)⟩
  · rintro ⟨l, hl, h⟩
    rcases comparedLiteral_eq_ok_iff.1 h with ⟨rfl, hnumber⟩ | ⟨htest, s, x, rfl, hx, rfl⟩
    · exact .literal hl hnumber
    · cases hl with
      | text hs => exact .converted htest hs hx

/-! ## Tokens of a form -/

theorem LiteralForm.ne_bracket (h : LiteralForm w l) : w ≠ [']'] := by
  rintro rfl
  have hnumeral : ¬Binary64.Numeral [']'] := fun hn =>
    hn.forall_mem (P := fun c => c ≠ ']')
      (fun c => Binary64.forall_isDigit (P := fun c => c ≠ ']') (by decide +kernel))
      (by decide) (by decide) ']' (.head _) rfl
  cases h with
  | text hs =>
    cases hs with
    | quoted hq _ => cases hq
  | int hn => exact hnumeral hn
  | float hn => exact hnumeral hn

theorem ReferenceForm.exists_reference (h : ReferenceForm ws v) :
    ∃ us, us.map Token.chars = ws ∧ Reference us v ∧ Parted us := by
  cases h with
  | quoted hs =>
    obtain ⟨hlexeme, rfl⟩ := stringForm_iff.1 hs
    exact ⟨_, rfl, .quoted rfl, .closed hlexeme (.inl rfl) .nil⟩
  | @answer w v hs =>
    obtain ⟨hlexeme, rfl⟩ := stringForm_iff.1 hs
    exact ⟨[⟨.name, "answer".toList⟩, markToken '(', ⟨.string, w⟩, markToken ')'], rfl,
      .answer rfl rfl rfl rfl rfl,
      .beforeMark (isLexeme_of_all (by decide) (by decide)) rfl (.beforeMark hlexeme rfl .nil)⟩

theorem exists_literals_of_forms (h : List.Forall₂ LiteralForm ns ls) (hne : ns ≠ []) :
    ∃ t us, (t :: us).map Token.chars = ns.intersperse [','] ++ [[']']] ∧ t.chars ≠ [']'] ∧
      Literals (t :: us) ls ∧ Parted (t :: us) := by
  induction h with
  | nil => exact absurd rfl hne
  | @cons n l ns ls hl hls ih =>
    obtain ⟨t, rfl, hlexeme, ht⟩ := literalForm_iff.1 hl
    cases ns with
    | nil =>
      cases hls
      exact ⟨t, [markToken ']'], rfl, hl.ne_bracket, .last ht rfl, .beforeMark hlexeme rfl .nil⟩
    | cons n' ns =>
      obtain ⟨t', us, hus, -, hlits, hparted⟩ := ih (List.cons_ne_nil _ _)
      refine ⟨t, markToken ',' :: t' :: us, ?_, hl.ne_bracket, .more ht rfl hlits,
        .beforeMark hlexeme rfl hparted⟩
      rw [List.map_cons, List.map_cons, hus]
      rfl

theorem ListForm.exists_literalList (h : ListForm ws ls) :
    ∃ us, us.map Token.chars = ws ∧ LiteralList us ls ∧ Parted us := by
  cases h with
  | list hls =>
    cases hls with
    | nil =>
      exact ⟨[markToken '[', markToken ']'], rfl, .empty rfl rfl,
        .beforeMark (.mark rfl) rfl .nil⟩
    | cons hl hls =>
      obtain ⟨t, us, hus, hne, hlits, hparted⟩ :=
        exists_literals_of_forms (.cons hl hls) (List.cons_ne_nil _ _)
      refine ⟨markToken '[' :: t :: us, ?_, .filled rfl hne hlits,
        .closed (.mark rfl) (.inr rfl) hparted⟩
      rw [List.map_cons, hus]
      rfl

/-- Arguments stand in parentheses behind the name of their predicate. -/
theorem Arguments.exists_derives {name : PredicateName} (h : Arguments name us c)
    (hparted : Parted (us ++ [markToken ')'])) :
    ∃ ts, ts.map Token.chars = name.name.toList :: ['('] :: (us.map Token.chars ++ [[')']]) ∧
      Derives ts c ∧ Parted ts := by
  refine ⟨⟨.name, name.name.toList⟩ :: markToken '(' :: (us ++ [markToken ')']), ?_,
    .predicate rfl ?_ rfl h rfl,
    .beforeMark (isLexeme_of_all (name_chars name).1 (name_chars name).2) rfl hparted⟩
  · simp [markToken]
  · rw [Token.text, String.ofList_toList, ofName?_name]

/-- The words of a form are those of tokens that the grammar derives the predicate from. -/
theorem PredicateForm.exists_derives (h : PredicateForm ws c) :
    ∃ ts, ts.map Token.chars = ws ∧ Derives ts c ∧ Parted ts := by
  have hclose : Parted [markToken ')'] := .closed (.mark rfl) (.inr rfl) .nil
  cases h with
  | @comparison test _ w v l hv hl =>
    obtain ⟨us, rfl, href, hparted⟩ := hv.exists_reference
    obtain ⟨l₀, hl₀, hcompared⟩ := comparedForm_iff.1 hl
    obtain ⟨t, rfl, hlexeme, ht⟩ := literalForm_iff.1 hl₀
    have hargs : Arguments (.comparison test) (us ++ [markToken ',', t]) (.comparison test v l) :=
      .comparison href rfl ht hcompared
    have hlast : Parted (us ++ ([markToken ',', t] ++ [markToken ')'])) :=
      hparted.append (.closed (.mark rfl) (.inr rfl) (.beforeMark hlexeme rfl .nil))
    obtain ⟨ts, hts, hall⟩ := hargs.exists_derives (by rwa [List.append_assoc])
    exact ⟨ts, by simpa [PredicateName.name, markToken] using hts, hall⟩
  | @selection test _ ws v ls hv hls =>
    obtain ⟨us, rfl, href, hparted⟩ := hv.exists_reference
    obtain ⟨vs, rfl, hlist, hparted'⟩ := hls.exists_literalList
    have hargs : Arguments (.selection test) (us ++ markToken ',' :: vs) (.selection test v ls) :=
      .selection href rfl hlist
    have hlast : Parted (us ++ (markToken ',' :: vs ++ [markToken ')'])) :=
      hparted.append (.closed (.mark rfl) (.inr rfl) (hparted'.append hclose))
    obtain ⟨ts, hts, hall⟩ := hargs.exists_derives (by rwa [List.append_assoc])
    exact ⟨ts, by simpa [PredicateName.name, markToken] using hts, hall⟩
  | @emptiness test _ v hv =>
    obtain ⟨us, rfl, href, hparted⟩ := hv.exists_reference
    have hargs : Arguments (.emptiness test) us (.emptiness test v) := .emptiness href
    exact hargs.exists_derives (hparted.append hclose)

/-! ## The form of tokens -/

theorem LiteralToken.form (h : LiteralToken t l) (ht : t.IsLexeme) : LiteralForm t.chars l :=
  literalForm_iff.2 ⟨t, rfl, ht, h⟩

theorem stringForm_of_kind (h : t.kind = .string) (ht : t.IsLexeme) :
    StringForm t.chars (unquote t.chars) := by
  obtain ⟨kind, chars⟩ := t
  obtain rfl : kind = .string := h
  exact stringForm_iff.2 ⟨ht, rfl⟩

theorem Reference.form (h : Reference us v) (hus : ∀ t ∈ us, t.IsLexeme) :
    ReferenceForm (us.map Token.chars) v := by
  cases h with
  | quoted hs => exact .quoted (stringForm_of_kind hs (hus _ (.head _)))
  | @answer t a s b _ htext ha hs hb =>
    have hanswer : t.chars = "answer".toList := by
      rw [← htext, Token.text, String.toList_ofList]
    have hstring := stringForm_of_kind hs (hus s (by simp))
    rw [List.map_cons, List.map_cons, List.map_cons, List.map_cons, hanswer, ha, hb]
    exact .answer hstring

theorem Literals.form (h : Literals us ls) (hus : ∀ t ∈ us, t.IsLexeme) :
    ∃ ns, us.map Token.chars = ns.intersperse [','] ++ [[']']] ∧ ns ≠ [] ∧
      List.Forall₂ LiteralForm ns ls := by
  induction h with
  | @last t b l ht hb =>
    exact ⟨[t.chars], by simp [hb], List.cons_ne_nil _ _,
      .cons (ht.form (hus t (.head _))) .nil⟩
  | @more t s l us ls ht hs _ ih =>
    obtain ⟨ns, hns, hne, hall⟩ := ih fun x hx => hus x (.tail _ (.tail _ hx))
    obtain ⟨n, ns, rfl⟩ := List.exists_cons_of_ne_nil hne
    refine ⟨t.chars :: n :: ns, ?_, List.cons_ne_nil _ _, .cons (ht.form (hus t (.head _))) hall⟩
    rw [List.map_cons, List.map_cons, hns, hs]
    rfl

theorem LiteralList.form (h : LiteralList us ls) (hus : ∀ t ∈ us, t.IsLexeme) :
    ListForm (us.map Token.chars) ls := by
  cases h with
  | empty ha hb =>
    rw [List.map_cons, List.map_cons, ha, hb]
    exact .list .nil
  | filled ha _ hls =>
    obtain ⟨ns, hns, -, hall⟩ := hls.form fun t ht => hus t (.tail _ ht)
    rw [List.map_cons, ha, hns]
    exact .list hall

/-- The words of tokens that the grammar derives a predicate from are of its form. -/
theorem Derives.form (h : Derives ts c) (hts : ∀ t ∈ ts, t.IsLexeme) :
    PredicateForm (ts.map Token.chars) c := by
  cases h with
  | @predicate n a b us name _ _ hname ha hargs hb =>
    have htext : name.name = n.text := by simpa using List.find?_some hname
    have hchars : n.chars = name.name.toList := by rw [htext, Token.text, String.toList_ofList]
    have hus : ∀ t ∈ us, t.IsLexeme := fun t ht => hts t (by simp [ht])
    rw [List.map_cons, List.map_cons, List.map_append, hchars, ha, List.map_singleton, hb]
    cases hargs with
    | @comparison test us v s t l l' hv hs ht hl =>
      have href := hv.form fun t ht => hus t (List.mem_append_left _ ht)
      have hlit := ht.form (hus t (by simp))
      have hform : PredicateForm _ (.comparison test v l') :=
        .comparison href (comparedForm_iff.2 ⟨l, hlit, hl⟩)
      simpa [hs, PredicateName.name] using hform
    | @selection test us vs v s ls hv hs hls =>
      have href := hv.form fun t ht => hus t (List.mem_append_left _ ht)
      have hlist := hls.form fun t ht => hus t (by simp [ht])
      have hform : PredicateForm _ (.selection test v ls) := .selection href hlist
      simpa [hs, PredicateName.name] using hform
    | emptiness hv => exact .emptiness (hv.form hus)

/-! ## What is read -/

/-- A text of one of the forms has the words of its tokens. -/
theorem PredicateForm.exists_lexed (h : PredicateForm ws c) (hcs : Spaced cs ws) :
    ∃ ts, ts.map Token.chars = ws ∧ Derives ts c ∧ Lexed cs ts := by
  obtain ⟨ts, rfl, hderives, hparted⟩ := h.exists_derives
  exact ⟨ts, rfl, hderives, lexed_of_spaced hparted hcs⟩

theorem Derives.ne_nil (h : Derives ts c) : ts ≠ [] := by
  cases h
  exact List.cons_ne_nil _ _

/-- Exactly the texts of the forms are read as predicates. -/
theorem predicate_eq_ok_iff : predicate cs = .ok c ↔ ∃ ws, Spaced cs ws ∧ PredicateForm ws c := by
  constructor
  · intro h
    obtain ⟨ts, hcs, hts⟩ := bind_eq_ok_iff.1 h
    obtain ⟨hlexed, -⟩ := tokens_eq_ok_iff.1 hcs
    exact ⟨_, hlexed.spaced, (ofTokens_eq_ok_iff.1 hts).form hlexed.isLexeme⟩
  · rintro ⟨ws, hcs, hws⟩
    obtain ⟨ts, -, hderives, hlexed⟩ := hws.exists_lexed hcs
    exact bind_eq_ok_iff.2 ⟨ts, tokens_eq_ok_iff.2 ⟨hlexed, hderives.ne_nil⟩,
      ofTokens_eq_ok_iff.2 hderives⟩

/-- A text is read as a predicate exactly if it has the words of a form with blanks around them, and
then it is read as the condition of that form. The words are those of the tokens, and without its
blanks outside strings the text is nothing but these words. -/
theorem predicate_accepts_exactly (cs : List Char) :
    (∀ c, predicate cs = .ok c ↔ ∃ ws, Spaced cs ws ∧ PredicateForm ws c) ∧
      ∀ ws c, Spaced cs ws → PredicateForm ws c →
        (tokens cs).map (List.map Token.chars) = .ok ws ∧ withoutBlanks none cs = ws.flatten := by
  refine ⟨fun c => predicate_eq_ok_iff, fun ws c hcs hws => ?_⟩
  obtain ⟨ts, rfl, hderives, hlexed⟩ := hws.exists_lexed hcs
  have htokens : tokens cs = .ok ts := tokens_eq_ok_iff.2 ⟨hlexed, hderives.ne_nil⟩
  exact ⟨by rw [htokens]; rfl, withoutBlanks_of_lexed hlexed⟩

/-- A predicate with blanks wherever they may stand, both quotes, and numbers of all kinds. -/
def spreadOut : List Char :=
  " noneSelected (\t\"it's\" , [ '] ,\\'' ,-\u0664, .50\n,9007199254740993 ] )\n".toList

theorem predicate_accepts_exactly_spreadOut :
    predicate spreadOut = .ok (.selection .none "it's" [.text "] ,'", .int (-4),
      .float (.finite false (Binary64.twoTo 52) (-53)), .int 9007199254740992]) ∧
    ∃ ws, Spaced spreadOut ws ∧ (tokens spreadOut).map (List.map Token.chars) = .ok ws ∧
      withoutBlanks none spreadOut = ws.flatten ∧
      ws.flatten = "noneSelected(\"it's\",['] ,\\'',-\u0664,.50,9007199254740993])".toList := by
  have hread : predicate spreadOut = .ok (.selection .none "it's" [.text "] ,'", .int (-4),
      .float (.finite false (Binary64.twoTo 52) (-53)), .int 9007199254740992]) := by
    decide +kernel
  obtain ⟨haccepts, hkeeps⟩ := predicate_accepts_exactly spreadOut
  obtain ⟨ws, hspaced, hform⟩ := (haccepts _).1 hread
  obtain ⟨htokens, hblanks⟩ := hkeeps ws _ hspaced hform
  refine ⟨hread, ws, hspaced, htokens, hblanks, ?_⟩
  rw [← hblanks]
  decide +kernel

/-! ## Predicates as conditions -/

/-- A predicate begins with a name and ends with a parenthesis. -/
theorem PredicateForm.exists_ends (h : PredicateForm ws c) :
    ∃ x n us, isNameStart x = true ∧ ws = (x :: n) :: (us ++ [[')']]) := by
  have hname (name : PredicateName) : ∃ x n, isNameStart x = true ∧ name.name.toList = x :: n := by
    obtain ⟨x, n, hchars, hx⟩ := exists_cons_of_head? (name_chars name).1
    exact ⟨x, n, hx, hchars⟩
  cases h with
  | @comparison test rs w v l =>
    obtain ⟨x, n, hx, hchars⟩ := hname (.comparison test)
    exact ⟨x, n, ['('] :: (rs ++ [[','], w]), hx, by simp [← hchars, PredicateName.name]⟩
  | @selection test rs ws v ls =>
    obtain ⟨x, n, hx, hchars⟩ := hname (.selection test)
    exact ⟨x, n, ['('] :: (rs ++ [','] :: ws), hx, by simp [← hchars, PredicateName.name]⟩
  | @emptiness test rs v =>
    obtain ⟨x, n, hx, hchars⟩ := hname (.emptiness test)
    exact ⟨x, n, ['('] :: rs, hx, by simp [← hchars, PredicateName.name]⟩

/-- The blanks at the ends of a predicate are trimmed. -/
theorem PredicateForm.exists_trim (h : PredicateForm ws c) (hcs : Spaced cs ws) :
    ∃ x r, isNameStart x = true ∧ trim cs = x :: (r ++ [')']) ∧ Spaced (trim cs) ws := by
  obtain ⟨x, n, us, hx, rfl⟩ := h.exists_ends
  obtain ⟨b, r, rfl, hb, hr⟩ := hcs.exists_word
  obtain ⟨r, b', rfl, hr, hb'⟩ := hr.exists_last
  have htrim : trim (b ++ (x :: n ++ (r ++ [')'] ++ b'))) = x :: (n ++ r ++ [')']) := by
    rw [trim_blank_append hb, ← List.append_assoc, trim_append_blank hb']
    simpa using trim_eq_self (r := n ++ r) (nameStart_plain hx).2.1 (y := ')') (by decide)
  refine ⟨x, n ++ r, hx, htrim, ?_⟩
  rw [htrim]
  simpa using Spaced.word (w := x :: n) (hr.append (.single [')']))

/-- What is read as a predicate is read so as a condition. -/
theorem parse_of_predicate {s : String} (h : predicate s.toList = .ok c) : parse s = .ok c := by
  have hcut (k : Connective) : ¬Cut k none s.toList :=
    (balanced_of_predicate h).not_cut (List.mem_singleton_self k)
  obtain ⟨ws, hcs, hws⟩ := predicate_eq_ok_iff.1 h
  obtain ⟨x, r, hx, htrim, hspaced⟩ := hws.exists_trim hcs
  have hinside : insideNegation? (trim s.toList) = none := by
    rw [htrim, insideNegation?.eq_2]
    rintro r' heq
    exact (nameStart_plain hx).2.2 (List.cons.inj heq).1
  have hread : negatable predicate (trim s.toList) = .ok c := by
    rw [negatable_of_unwrapped (trim_trim _) (by simp [htrim]) hinside]
    exact predicate_eq_ok_iff.2 ⟨ws, hspaced, hws⟩
  rw [parse_eq_ok_iff, composite_eq_atom (hcut .and) (hcut .or), atom, ← hread, negatable,
    negatable, trim_trim]

/-- A text of one of the forms is read as the condition of that form. -/
theorem parse_of_form {s : String} (h : PredicateForm ws c) (hs : Spaced s.toList ws) :
    parse s = .ok c :=
  parse_of_predicate (predicate_eq_ok_iff.2 ⟨ws, hs, h⟩)

end Questionnaire.Condition
