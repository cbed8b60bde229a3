import Questionnaire.Condition.Token
import Questionnaire.Proofs.Number.Numeral

/-!
# The tokens of a text

How a text falls into tokens and blanks is told without a bound on their number (`Lexed`), and that
is what the tokenizer finds (`tokens_eq_ok_iff`). Nothing is lost: a token is what stands at its
place in the text, and that is one of the texts that its kind allows (`token?_sound`).
-/

namespace Questionnaire.Condition

open Text

variable {q c : Char} {cs s r rest : List Char} {t : Token} {ts : List Token}

/-! ## Strings -/

/-- What stands in a string behind its opening quote, with the closing quote. A backslash takes the
character after it, which is no line feed. -/
inductive InString (q : Char) : List Char → Prop
  | close : InString q [q]
  | escaped {d : Char} {s : List Char} : d ≠ '\n' → InString q s → InString q (backslash :: d :: s)
  | plain {c : Char} {s : List Char} : c ≠ q → c ≠ backslash → InString q s → InString q (c :: s)

theorem ne_backslash_of_isQuote (hq : isQuote q = true) : q ≠ backslash := by
  rintro rfl
  cases hq

theorem inString_of_closeString? (h : closeString? q cs = some (s, rest)) :
    cs = s ++ rest ∧ InString q s := by
  fun_induction closeString? q cs generalizing s rest with
  | case1 => cases h
  | case2 c r hc =>
    cases h
    rw [eq_of_beq hc]
    exact ⟨rfl, .close⟩
  | case3 => cases h
  | case4 => cases h
  | case5 c hc hbackslash d r hd ih =>
    obtain ⟨⟨s, rest⟩, hsome, h⟩ := Option.map_eq_some_iff.1 h
    cases h
    obtain ⟨rfl, hs⟩ := ih hsome
    rw [eq_of_beq hbackslash]
    exact ⟨rfl, .escaped (by simpa using hd) hs⟩
  | case6 c r hc hbackslash ih =>
    obtain ⟨⟨s, rest⟩, hsome, h⟩ := Option.map_eq_some_iff.1 h
    cases h
    obtain ⟨rfl, hs⟩ := ih hsome
    exact ⟨rfl, .plain (by simpa using hc) (by simpa using hbackslash) hs⟩

theorem closeString?_of_inString (hq : q ≠ backslash) (h : InString q s) :
    closeString? q (s ++ rest) = some (s, rest) := by
  induction h with
  | close =>
    rw [List.singleton_append, closeString?.eq_def]
    simp
  | escaped hd _ ih => simp [closeString?, hq.symm, hd, ih]
  | @plain c s hc hbackslash _ ih =>
    rw [List.cons_append, closeString?.eq_def]
    simp [hc, hbackslash, ih]

/-! ## Lexemes -/

/-- The tokens whose text is one that their kind allows. -/
inductive Token.IsLexeme : Token → Prop
  | string {q : Char} {s : List Char} : isQuote q = true → InString q s →
      IsLexeme ⟨.string, q :: s⟩
  | number {n : List Char} : Binary64.Numeral n → IsLexeme ⟨.number, n⟩
  | name {c : Char} {r : List Char} : isNameStart c = true → (∀ d ∈ r, isNameChar d = true) →
      IsLexeme ⟨.name, c :: r⟩
  | mark {c : Char} : isMark c = true → IsLexeme ⟨.mark, [c]⟩

theorem Token.IsLexeme.ne_nil (h : t.IsLexeme) : t.chars ≠ [] := by
  cases h with
  | number hn => exact hn.ne_nil
  | string | name | mark => exact List.cons_ne_nil _ _

theorem unsignedNumber?_sound {n : List Char} (h : unsignedNumber? cs = some (n, rest)) :
    cs = n ++ rest ∧ Binary64.Unsigned isDigit n := by
  unfold unsignedNumber? at h
  dsimp only at h
  have hcs := (List.takeWhile_append_dropWhile (p := isDigit) (l := cs)).symm
  have hdigits {l : List Char} : ∀ c ∈ l.takeWhile isDigit, isDigit c = true :=
    fun _ hc => List.mem_takeWhile_imp hc
  split at h
  · next r hr =>
    split at h
    · cases h
    · next hempty =>
      cases h
      rw [hr] at hcs
      refine ⟨?_, .pointed (by simpa using hempty) fun c hc => ?_⟩
      · rw [List.append_assoc, List.cons_append, List.takeWhile_append_dropWhile]
        exact hcs
      · exact (List.mem_append.1 hc).elim (hdigits c) (hdigits c)
  · split at h
    · cases h
    · next hwhole =>
      cases h
      exact ⟨hcs, .whole (by simpa using hwhole) hdigits⟩

theorem number?_sound {n : List Char} (h : number? cs = some (n, rest)) :
    cs = n ++ rest ∧ Binary64.Numeral n := by
  unfold number? at h
  split at h
  · obtain ⟨⟨n, rest⟩, hn, h⟩ := Option.map_eq_some_iff.1 h
    cases h
    obtain ⟨rfl, hunsigned⟩ := unsignedNumber?_sound hn
    exact ⟨rfl, .minus hunsigned⟩
  · obtain ⟨hcs, hn⟩ := unsignedNumber?_sound h
    exact ⟨hcs, .plain hn⟩

/-- A token is what stands at the start of the text. -/
theorem token?_sound (h : token? c r = some (t, rest)) : c :: r = t.chars ++ rest ∧ t.IsLexeme := by
  unfold token? at h
  split at h
  · next hq =>
    obtain ⟨⟨s, rest⟩, hsome, h⟩ := Option.map_eq_some_iff.1 h
    cases h
    obtain ⟨rfl, hs⟩ := inString_of_closeString? hsome
    exact ⟨rfl, .string hq hs⟩
  · split at h
    · next n rest hn =>
      cases h
      obtain ⟨hcs, hn⟩ := number?_sound hn
      exact ⟨hcs, .number hn⟩
    · split at h
      · next hstart =>
        cases h
        exact ⟨by rw [List.cons_append, List.takeWhile_append_dropWhile],
          .name hstart fun _ hd => List.mem_takeWhile_imp hd⟩
      · split at h
        · next hmark =>
          cases h
          exact ⟨rfl, .mark hmark⟩
        · cases h

/-! ## The tokens of a text -/

/-- The tokens of a text, without the blanks between them. -/
inductive Lexed : List Char → List Token → Prop
  | nil : Lexed [] []
  | blank {c : Char} {r : List Char} {ts : List Token} : token? c r = none → isBlank c = true →
      Lexed r ts → Lexed (c :: r) ts
  | token {c : Char} {r rest : List Char} {t : Token} {ts : List Token} :
      token? c r = some (t, rest) → Lexed rest ts → Lexed (c :: r) (t :: ts)

theorem tokensWithin_eq_ok_iff (whole : List Char) : ∀ {fuel : Nat} {cs : List Char}
    {ts : List Token}, cs.length ≤ fuel → (tokensWithin whole fuel cs = .ok ts ↔ Lexed cs ts)
  | fuel, [], ts, _ => by
    have hnil : tokensWithin whole fuel [] = .ok [] := by cases fuel <;> rfl
    rw [hnil, Except.ok.injEq]
    constructor
    · rintro rfl
      exact .nil
    · intro h
      cases h
      rfl
  | fuel + 1, c :: r, ts, hfuel => by
    rw [List.length_cons] at hfuel
    unfold tokensWithin
    split
    · next t rest ht =>
      obtain ⟨hcs, hlexeme⟩ := token?_sound ht
      have hlen : rest.length ≤ fuel := by
        have hpos := List.length_pos_iff.2 hlexeme.ne_nil
        have := congrArg List.length hcs
        simp only [List.length_cons, List.length_append] at this
        omega
      constructor
      · intro h
        cases hrest : tokensWithin whole fuel rest with
        | error e => rw [hrest] at h; cases h
        | ok ts' =>
          rw [hrest] at h
          cases h
          exact .token ht ((tokensWithin_eq_ok_iff whole hlen).1 hrest)
      · intro h
        cases h with
        | blank hnone => rw [hnone] at ht; cases ht
        | token ht' hrest =>
          cases ht'.symm.trans ht
          rw [(tokensWithin_eq_ok_iff whole hlen).2 hrest]
          rfl
    · next hnone =>
      split
      · next hblank =>
        rw [tokensWithin_eq_ok_iff whole (by omega)]
        constructor
        · exact .blank hnone hblank
        · intro h
          cases h with
          | blank _ _ hrest => exact hrest
          | token ht => rw [hnone] at ht; cases ht
      · next hblank =>
        constructor
        · intro h
          cases h
        · intro h
          cases h with
          | blank _ hc => exact absurd hc hblank
          | token ht => rw [hnone] at ht; cases ht

/-- The tokenizer finds the tokens that a text has, if it has any. -/
theorem tokens_eq_ok_iff : tokens cs = .ok ts ↔ Lexed cs ts ∧ ts ≠ [] := by
  rw [← tokensWithin_eq_ok_iff cs (Nat.le_refl _)]
  unfold tokens
  split
  · next hnil =>
    rw [hnil]
    simp
  · next hne =>
    constructor
    · intro h
      refine ⟨h, ?_⟩
      rintro rfl
      exact hne h
    · exact fun h => h.1

end Questionnaire.Condition
