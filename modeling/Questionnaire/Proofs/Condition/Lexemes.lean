import Questionnaire.Proofs.Condition.Lexing

/-!
# Texts of tokens

Blanks may stand around the tokens of a text (`Spaced`), and outside of strings they are all that is
not in a token (`withoutBlanks_of_lexed`). The tokenizer takes a name or a number as far as it goes,
so a lexeme is split off as it is if a blank or a mark stands behind it
(`Lexed.cons_of_isLexeme`). Tokens of which none can run into the next one (`Parted`) are therefore
those of every text that has them with blanks around (`lexed_of_spaced`), and each text that has
tokens is of that kind (`Lexed.spaced`).
-/

namespace Questionnaire.Condition

open Text

variable {q c : Char} {cs s w r rest : List Char} {t : Token} {ts us : List Token}
  {ws : List (List Char)}

/-! ## Characters that begin tokens -/

/-- A character that begins strings or numbers. -/
def beginsLiteral (c : Char) : Bool := isQuote c || isDigit c || c == '.' || c == '-'

/-- Another character begins a name, is a mark, or begins no token. -/
theorem token?_of_beginsLiteral {x : Char} (r : List Char) (h : beginsLiteral x = false) :
    token? x r = if isNameStart x then
        some (⟨.name, x :: r.takeWhile isNameChar⟩, r.dropWhile isNameChar)
      else if isMark x then some (⟨.mark, [x]⟩, r) else none := by
  simp only [beginsLiteral, Bool.or_eq_false_iff, beq_eq_false_iff_ne] at h
  obtain ⟨⟨⟨hquote, hdigit⟩, hpoint⟩, hminus⟩ := h
  have hunsigned : unsignedNumber? (x :: r) = none := by
    simp [unsignedNumber?, hdigit, hpoint]
  have hnumber : number? (x :: r) = none := by
    unfold number?
    split
    · next heq =>
      cases heq
      exact absurd rfl hminus
    · exact hunsigned
  rw [token?, hquote, hnumber]
  rfl

/-- A kind of characters that has no mark in it. -/
theorem eq_false_of_isMark {p : Char → Bool} (hp : ['(', ')', '[', ']', ','].any p = false)
    {m : Char} (hm : isMark m = true) : p m = false := by
  have hmem : m ∈ ['(', ')', '[', ']', ','] := List.contains_iff_mem.1 hm
  simpa using List.any_eq_false.1 hp m hmem

/-- A kind of characters that has no quote in it. -/
theorem isQuote_eq_false {p : Char → Bool} (hp : [singleQuote, doubleQuote].any p = false)
    (hc : p c = true) : isQuote c = false := by
  rw [← Bool.not_eq_true]
  intro hquote
  rcases Bool.or_eq_true_iff.1 hquote with h | h
  all_goals
    rw [eq_of_beq h] at hc
    simp [hc] at hp

theorem toNat_of_isNameStart {x : Char} (hx : isNameStart x = true) :
    65 ≤ x.toNat ∧ x.toNat ≤ 122 := by
  rcases Bool.or_eq_true_iff.1 hx with hletter | hunderscore
  · rcases Bool.or_eq_true_iff.1 hletter with hupper | hlower
    · obtain ⟨hlow, hhigh⟩ : 'A'.val ≤ x.val ∧ x.val ≤ 'Z'.val := of_decide_eq_true hupper
      exact ⟨UInt32.le_iff_toNat_le.1 hlow,
        Nat.le_trans (UInt32.le_iff_toNat_le.1 hhigh) (by decide)⟩
    · obtain ⟨hlow, hhigh⟩ := Bool.and_eq_true_iff.1 hlower
      exact ⟨Nat.le_trans (by decide) (UInt32.le_iff_toNat_le.1 (of_decide_eq_true hlow)),
        UInt32.le_iff_toNat_le.1 (of_decide_eq_true hhigh)⟩
  · obtain rfl := eq_of_beq hunderscore
    decide

/-- A character of one kind is of no kind without characters in common. -/
theorem eq_false_of_disjoint {p p' : Char → Bool} (h : p' c = true → p c = false)
    (hc : p c = true) : p' c = false := by
  rw [← Bool.not_eq_true]
  intro hc'
  rw [h hc'] at hc
  cases hc

/-- No script has its digits among the ASCII letters. -/
theorem isDigit_of_isNameStart {x : Char} (hx : isNameStart x = true) : isDigit x = false :=
  eq_false_of_disjoint
    (Binary64.forall_isDigit (P := fun x => isNameStart x = false) (by decide +kernel)) hx

/-- What begins a name begins neither another token nor a negation, and is not blank. -/
theorem nameStart_plain {x : Char} (hx : isNameStart x = true) :
    beginsLiteral x = false ∧ isBlank x = false ∧ x ≠ '!' := by
  have hrange := toNat_of_isNameStart hx
  have hne (y : Char) (hy : y.toNat < 65) : x ≠ y := by
    rintro rfl
    omega
  refine ⟨?_, ?_, hne '!' (by decide)⟩
  · simp [beginsLiteral, isQuote, isDigit_of_isNameStart hx, hne singleQuote (by decide),
      hne doubleQuote (by decide), hne '.' (by decide), hne '-' (by decide)]
  · simp [isBlank]
    omega

theorem isBlank_of_isDigit (hc : isDigit c = true) : isBlank c = false :=
  Binary64.forall_isDigit (P := fun c => isBlank c = false) (by decide +kernel) hc

theorem isBlank_of_isNameChar (hc : isNameChar c = true) : isBlank c = false := by
  simp only [isNameChar, Char.isAlphanum, Bool.or_eq_true] at hc
  rcases hc with (halpha | hdigit) | hunderscore
  · exact (nameStart_plain (by simp [isNameStart, halpha])).2.1
  · exact Binary64.forall_digit (P := fun c => isBlank c = false) (by decide) hdigit
  · exact (nameStart_plain (by simp [isNameStart, hunderscore])).2.1

theorem ne_of_isBlank {x : Char} (hx : isBlank x = false) (hc : isBlank c = true) : c ≠ x := by
  rintro rfl
  rw [hx] at hc
  cases hc

/-- No token begins with a blank. -/
theorem token?_of_isBlank (hc : isBlank c = true) : token? c r = none := by
  have hdigit : isDigit c = false := eq_false_of_disjoint isBlank_of_isDigit hc
  have hbegins : beginsLiteral c = false := by
    simp [beginsLiteral, isQuote, hdigit, ne_of_isBlank (x := singleQuote) (by decide) hc,
      ne_of_isBlank (x := doubleQuote) (by decide) hc, ne_of_isBlank (x := '.') (by decide) hc,
      ne_of_isBlank (x := '-') (by decide) hc]
  have hname : isNameStart c = false := eq_false_of_disjoint (fun h => (nameStart_plain h).2.1) hc
  have hmark : isMark c = false := eq_false_of_disjoint (eq_false_of_isMark (by decide)) hc
  simp [token?_of_beginsLiteral r hbegins, hname, hmark]

/-! ## Lexemes and what stands behind them -/

/-- The token of a mark. -/
def markToken (c : Char) : Token := ⟨.mark, [c]⟩

theorem exists_cons_of_head? {p : Char → Bool} {n : List Char} (h : n.head?.any p = true) :
    ∃ x r, n = x :: r ∧ p x = true := by
  cases n with
  | nil => cases h
  | cons x r => exact ⟨x, r, rfl, by simpa using h⟩

/-- The token of a name is a lexeme. -/
theorem isLexeme_of_all {n : List Char} (hstart : n.head?.any isNameStart = true)
    (hn : n.all isNameChar = true) : Token.IsLexeme ⟨.name, n⟩ := by
  obtain ⟨x, r, rfl, hx⟩ := exists_cons_of_head? hstart
  exact .name hx fun d hd => List.all_eq_true.1 hn d (.tail _ hd)

theorem name_chars (name : PredicateName) : name.name.toList.head?.any isNameStart = true ∧
    name.name.toList.all isNameChar = true := by
  cases name with
  | comparison test => cases test <;> decide
  | selection test => cases test <;> decide
  | emptiness test => cases test <;> decide

/-- A text that begins, if at all, with a blank or a mark. -/
def Stops (cs : List Char) : Prop := ∀ c ∈ cs.head?, isBlank c = true ∨ isMark c = true

theorem Stops.mark {m : Char} (hm : isMark m = true) : Stops (m :: r) := by
  intro c hc
  cases hc
  exact .inr hm

/-- A text that stops does not begin with a kind of characters without blanks and marks. -/
theorem Stops.eq_false {p : Char → Bool} (h : Stops rest)
    (hblank : ∀ x, p x = true → isBlank x = false)
    (hmark : ['(', ')', '[', ']', ','].any p = false) : ∀ c ∈ rest.head?, p c = false :=
  fun c hc => (h c hc).elim (eq_false_of_disjoint (hblank c)) (eq_false_of_isMark hmark)

/-- A run of characters of one kind goes as far as it can. -/
theorem span_append {p : Char → Bool} (hw : ∀ c ∈ w, p c = true)
    (hrest : ∀ c ∈ rest.head?, p c = false) :
    (w ++ rest).takeWhile p = w ∧ (w ++ rest).dropWhile p = rest := by
  rw [List.takeWhile_append_of_pos hw, List.dropWhile_append_of_pos hw]
  cases rest with
  | nil => simp
  | cons c r => simp [hrest c rfl]

theorem unsignedNumber?_append {n : List Char} (hn : Binary64.Unsigned isDigit n)
    (hdigit : ∀ c ∈ rest.head?, isDigit c = false) (hpoint : ∀ c ∈ rest.head?, c ≠ '.') :
    unsignedNumber? (n ++ rest) = some (n, rest) := by
  cases hn with
  | whole hne hw =>
    obtain ⟨htake, hdrop⟩ := span_append hw hdigit
    unfold unsignedNumber?
    dsimp only
    rw [htake, hdrop]
    split
    · exact absurd rfl (hpoint '.' rfl)
    · simp [hne]
  | @pointed w f hne hwf =>
    have hw : ∀ c ∈ w, isDigit c = true := fun c hc => hwf c (List.mem_append_left _ hc)
    have hf : ∀ c ∈ f, isDigit c = true := fun c hc => hwf c (List.mem_append_right _ hc)
    have hstop : ∀ c ∈ ('.' :: (f ++ rest)).head?, isDigit c = false := by
      intro c hc
      cases hc
      decide
    obtain ⟨htake, hdrop⟩ := span_append hw hstop
    obtain ⟨htake', hdrop'⟩ := span_append hf hdigit
    have hempty : ¬(w.isEmpty && f.isEmpty) = true := by simpa using hne
    rw [List.append_assoc, List.cons_append]
    simp [unsignedNumber?, htake, hdrop, htake', hdrop', hempty]

theorem number?_append {n : List Char} (hn : Binary64.Numeral n)
    (hdigit : ∀ c ∈ rest.head?, isDigit c = false) (hpoint : ∀ c ∈ rest.head?, c ≠ '.') :
    number? (n ++ rest) = some (n, rest) := by
  cases hn with
  | minus hn =>
    rw [List.cons_append, number?, unsignedNumber?_append hn hdigit hpoint]
    rfl
  | plain hn =>
    unfold number?
    split
    · next r heq =>
      -- A digit or the point comes first, and no minus.
      obtain ⟨x, n, rfl⟩ := List.exists_cons_of_ne_nil hn.ne_nil
      obtain ⟨rfl, -⟩ := List.cons.inj heq
      exact absurd (hn.digit_or_point '-' (.head _)) (by decide)
    · exact unsignedNumber?_append hn hdigit hpoint

/-- A lexeme is split off as it is, if nothing behind it could belong to it. -/
theorem Lexed.cons_of_isLexeme (ht : t.IsLexeme)
    (hend : t.kind = .string ∨ t.kind = .mark ∨ Stops rest) (hrest : Lexed rest us) :
    Lexed (t.chars ++ rest) (t :: us) := by
  cases ht with
  | @string q s hq hs =>
    refine .token (r := s ++ rest) ?_ hrest
    rw [token?, if_pos hq, closeString?_of_inString (ne_backslash_of_isQuote hq) hs]
    rfl
  | @number n hn =>
    have hstop : Stops rest := (hend.resolve_left nofun).resolve_left nofun
    have hquote : ∀ c ∈ n, isQuote c = false :=
      hn.forall_mem (fun c hc => isQuote_eq_false (p := isDigit) (by decide) hc) rfl rfl
    have hdigit := hstop.eq_false (p := isDigit) (fun _ => isBlank_of_isDigit) (by decide)
    have hpoint := hstop.eq_false (p := (· == '.')) (fun _ hx => eq_of_beq hx ▸ rfl) (by decide)
    have hnumber : number? (n ++ rest) = some (n, rest) :=
      number?_append hn hdigit fun c hc => by simpa using hpoint c hc
    obtain ⟨x, r, rfl⟩ := List.exists_cons_of_ne_nil hn.ne_nil
    rw [List.cons_append] at hnumber
    refine .token (r := r ++ rest) ?_ hrest
    rw [token?, hquote x (.head _), hnumber]
    rfl
  | @name x r hstart hr =>
    have hstop : Stops rest := (hend.resolve_left nofun).resolve_left nofun
    obtain ⟨htake, hdrop⟩ :=
      span_append hr (hstop.eq_false (fun _ => isBlank_of_isNameChar) (by decide))
    refine .token (r := r ++ rest) ?_ hrest
    rw [token?_of_beginsLiteral _ (nameStart_plain hstart).1, if_pos hstart, htake, hdrop]
  | @mark m hm =>
    have hbegins : beginsLiteral m = false := eq_false_of_isMark (by decide) hm
    have hstart : isNameStart m = false := eq_false_of_isMark (by decide) hm
    refine .token (r := rest) ?_ hrest
    simp [token?_of_beginsLiteral _ hbegins, hstart, hm]

theorem Lexed.append_blanks {b : List Char} (hb : ∀ c ∈ b, isBlank c = true) (h : Lexed cs ts) :
    Lexed (b ++ cs) ts := by
  induction b with
  | nil => exact h
  | cons c b ih =>
    have hc := hb c (.head _)
    exact .blank (token?_of_isBlank hc) hc (ih fun d hd => hb d (.tail _ hd))

/-! ## Words with blanks around them -/

/-- A text that has these words, in this order, with blanks around them and nothing else. -/
inductive Spaced : List Char → List (List Char) → Prop
  | nil : Spaced [] []
  | blank {c : Char} {r : List Char} {ws : List (List Char)} : isBlank c = true → Spaced r ws →
      Spaced (c :: r) ws
  | word {w r : List Char} {ws : List (List Char)} : Spaced r ws → Spaced (w ++ r) (w :: ws)

namespace Spaced

theorem blank_of_nil (h : Spaced cs []) : ∀ c ∈ cs, isBlank c = true := by
  generalize hws : ([] : List (List Char)) = ws at h
  induction h with
  | nil => exact List.forall_mem_nil _
  | blank hc _ ih => exact List.forall_mem_cons.2 ⟨hc, ih hws⟩
  | word => cases hws

theorem of_blank {b : List Char} (hb : ∀ c ∈ b, isBlank c = true) : Spaced b [] := by
  induction b with
  | nil => exact .nil
  | cons c b ih => exact .blank (hb c (.head _)) (ih fun d hd => hb d (.tail _ hd))

/-- Only blanks stand before the first word. -/
theorem exists_word (h : Spaced cs (w :: ws)) :
    ∃ b r, cs = b ++ (w ++ r) ∧ (∀ c ∈ b, isBlank c = true) ∧ Spaced r ws := by
  generalize hvs : w :: ws = vs at h
  induction h with
  | nil => cases hvs
  | @blank c r vs hc _ ih =>
    obtain ⟨b, r, rfl, hb, hr⟩ := ih hvs
    exact ⟨c :: b, r, rfl, List.forall_mem_cons.2 ⟨hc, hb⟩, hr⟩
  | @word w r ws hr =>
    cases hvs
    exact ⟨[], r, rfl, List.forall_mem_nil _, hr⟩

theorem single (w : List Char) : Spaced w [w] := by
  simpa using Spaced.word (w := w) .nil

theorem append {cs' : List Char} {ws' : List (List Char)} (h : Spaced cs ws)
    (h' : Spaced cs' ws') : Spaced (cs ++ cs') (ws ++ ws') := by
  induction h with
  | nil => exact h'
  | blank hc _ ih => exact .blank hc ih
  | word _ ih =>
    rw [List.append_assoc]
    exact .word ih

/-- Words need no blanks around them. -/
theorem flatten : ∀ ws : List (List Char), Spaced ws.flatten ws
  | [] => .nil
  | _ :: ws => .word (flatten ws)

/-- Only blanks stand behind the last word. -/
theorem exists_last (h : Spaced cs (ws ++ [w])) :
    ∃ r b, cs = r ++ w ++ b ∧ Spaced r ws ∧ ∀ c ∈ b, isBlank c = true := by
  induction ws generalizing cs with
  | nil =>
    obtain ⟨b, r, rfl, hb, hr⟩ := h.exists_word
    exact ⟨b, r, by simp, .of_blank hb, hr.blank_of_nil⟩
  | cons v ws ih =>
    obtain ⟨b, r, rfl, hb, hr⟩ := h.exists_word
    obtain ⟨r, b', rfl, hr, hb'⟩ := ih hr
    refine ⟨b ++ (v ++ r), b', by simp, ?_, hb'⟩
    exact (of_blank hb).append hr.word

/-- A text stops if its first word is a mark. -/
theorem stops {m : Char} (hm : isMark m = true) (h : Spaced cs ([m] :: ws)) : Stops cs := by
  obtain ⟨b, r, rfl, hb, -⟩ := h.exists_word
  cases b with
  | nil => exact .mark hm
  | cons c b =>
    intro d hd
    cases hd
    exact .inl (hb c (.head _))

end Spaced

/-- The words of a text are those of its tokens. -/
theorem Lexed.spaced (h : Lexed cs ts) : Spaced cs (ts.map Token.chars) := by
  induction h with
  | nil => exact .nil
  | blank _ hc _ ih => exact .blank hc ih
  | token ht _ ih =>
    rw [(token?_sound ht).1]
    exact .word ih

theorem Lexed.isLexeme (h : Lexed cs ts) : ∀ t ∈ ts, t.IsLexeme := by
  induction h with
  | nil => exact List.forall_mem_nil _
  | blank _ _ _ ih => exact ih
  | token ht _ ih => exact List.forall_mem_cons.2 ⟨(token?_sound ht).2, ih⟩

/-- Lexemes of which none can run into the next one: behind every name and every number stands a
mark. -/
inductive Parted : List Token → Prop
  | nil : Parted []
  | closed {t : Token} {ts : List Token} : t.IsLexeme → t.kind = .string ∨ t.kind = .mark →
      Parted ts → Parted (t :: ts)
  | beforeMark {t : Token} {m : Char} {ts : List Token} : t.IsLexeme → isMark m = true →
      Parted ts → Parted (t :: markToken m :: ts)

theorem Parted.append (h : Parted ts) (h' : Parted us) : Parted (ts ++ us) := by
  induction h with
  | nil => exact h'
  | closed ht hkind _ ih => exact .closed ht hkind ih
  | beforeMark ht hm _ ih => exact .beforeMark ht hm ih

/-- Lexemes that cannot run into each other are the tokens of every text that has them with blanks
around. -/
theorem lexed_of_spaced (hts : Parted ts) : ∀ {cs : List Char},
    Spaced cs (ts.map Token.chars) → Lexed cs ts := by
  induction hts with
  | nil =>
    intro cs h
    rw [← List.append_nil cs]
    exact Lexed.nil.append_blanks h.blank_of_nil
  | closed ht hkind _ ih =>
    intro cs h
    obtain ⟨b, r, rfl, hb, hr⟩ := h.exists_word
    exact (Lexed.cons_of_isLexeme ht (hkind.imp_right .inl) (ih hr)).append_blanks hb
  | @beforeMark t m ts ht hm _ ih =>
    intro cs h
    obtain ⟨b, r, rfl, hb, hr⟩ := h.exists_word
    obtain ⟨b', r', rfl, hb', hr'⟩ := hr.exists_word
    have hmark : Lexed ((markToken m).chars ++ r') (markToken m :: ts) :=
      Lexed.cons_of_isLexeme (.mark hm) (.inr (.inl rfl)) (ih hr')
    exact (Lexed.cons_of_isLexeme ht (.inr (.inr (hr.stops hm)))
      (hmark.append_blanks hb')).append_blanks hb

/-! ## Blanks outside strings -/

/-- The text without its blanks outside strings. The first argument is the quote of the string in
which the text starts. -/
def withoutBlanks : Option Char → List Char → List Char
  | _, [] => []
  | some q, c :: r =>
    if c == backslash then
      match r with
      | [] => [c]
      | d :: r' => c :: d :: withoutBlanks (some q) r'
    else c :: withoutBlanks (if c == q then none else some q) r
  | none, c :: r =>
    if isQuote c then c :: withoutBlanks (some c) r
    else if isBlank c then withoutBlanks none r
    else c :: withoutBlanks none r

theorem withoutBlanks_string (hq : q ≠ backslash) (hs : InString q s) :
    withoutBlanks (some q) (s ++ rest) = s ++ withoutBlanks none rest := by
  induction hs with
  | close =>
    rw [List.singleton_append, withoutBlanks.eq_def]
    simp [hq]
  | escaped _ _ ih => simp [withoutBlanks, ih]
  | @plain c s hc hbackslash _ ih =>
    rw [List.cons_append, withoutBlanks.eq_def]
    simp [hc, hbackslash, ih]

/-- Nothing is taken out of a run of characters that are neither quotes nor blanks. -/
theorem withoutBlanks_append (hw : ∀ c ∈ w, isQuote c = false ∧ isBlank c = false) :
    withoutBlanks none (w ++ rest) = w ++ withoutBlanks none rest := by
  induction w with
  | nil => rfl
  | cons c w ih =>
    obtain ⟨hquote, hblank⟩ := hw c (.head _)
    simp [withoutBlanks, hquote, hblank, ih fun d hd => hw d (.tail _ hd)]

/-- Nothing is taken out of a lexeme. -/
theorem Token.IsLexeme.withoutBlanks (ht : t.IsLexeme) :
    withoutBlanks none (t.chars ++ rest) = t.chars ++ withoutBlanks none rest := by
  cases ht with
  | string hq hs =>
    simp [Condition.withoutBlanks, hq, withoutBlanks_string (ne_backslash_of_isQuote hq) hs]
  | number hn =>
    refine withoutBlanks_append (hn.forall_mem (fun c hc => ⟨?_, isBlank_of_isDigit hc⟩)
      (by decide) (by decide))
    exact isQuote_eq_false (by decide) hc
  | name hstart hr =>
    have hname : ∀ c, isNameChar c = true → isQuote c = false ∧ isBlank c = false := fun c hc =>
      ⟨isQuote_eq_false (by decide) hc, isBlank_of_isNameChar hc⟩
    refine withoutBlanks_append (List.forall_mem_cons.2 ⟨⟨?_, (nameStart_plain hstart).2.1⟩,
      fun c hc => hname c (hr c hc)⟩)
    exact isQuote_eq_false (by decide) hstart
  | mark hm =>
    exact withoutBlanks_append (List.forall_mem_singleton.2
      ⟨eq_false_of_isMark (by decide) hm, eq_false_of_isMark (by decide) hm⟩)

/-- The tokens of a text are all of it but blanks outside strings. -/
theorem withoutBlanks_of_lexed (h : Lexed cs ts) :
    withoutBlanks none cs = (ts.map Token.chars).flatten := by
  induction h with
  | nil => rfl
  | @blank c r ts _ hc _ ih =>
    have hquote : isQuote c = false := isQuote_eq_false (p := isBlank) (by decide) hc
    simp [withoutBlanks, hquote, hc, ih]
  | token ht _ ih =>
    obtain ⟨hcs, hlexeme⟩ := token?_sound ht
    rw [hcs, hlexeme.withoutBlanks, ih, List.map_cons, List.flatten_cons]

end Questionnaire.Condition
