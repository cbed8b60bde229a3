import Questionnaire.Proofs.Condition.Lexing
import Questionnaire.Proofs.Condition.Pieces

/-!
# Where a text is taken apart

A text is taken apart at the signs of a connective in front of which all strings are closed
(`StringsClosed`). Two signs can share a blank, as in ` && && `. Then only the first of them counts,
and what is left of the other one is part of the next piece. So a text is taken apart at a sign
exactly if the strings in front of it are closed and its first blank is not the last one of a sign
at which the text is taken apart (`Splits.front_iff`). A sign within a string is no such sign,
whatever is escaped there, and no other sign is overlooked (`pieces_lossless`).
-/

namespace Questionnaire.Condition

open Text

variable {k : Connective} {q : Char} {a b cs s r : List Char} {p : List Char}
  {ps : List (List Char)}

/-! ## Closed strings -/

/-- The inside of a string in a quote. A backslash takes the character after it, even a quote or
another backslash. -/
inductive StringBody (q : Char) : List Char → Prop
  | nil : StringBody q []
  | plain {c : Char} {s : List Char} : c ≠ q → c ≠ backslash → StringBody q s →
      StringBody q (c :: s)
  | escaped {c : Char} {s : List Char} : StringBody q s → StringBody q (backslash :: c :: s)

/-- A text in which every string ends that begins there. -/
inductive StringsClosed : List Char → Prop
  | nil : StringsClosed []
  | plain {c : Char} {r : List Char} : isQuote c = false → StringsClosed r → StringsClosed (c :: r)
  | string {q : Char} {s r : List Char} : isQuote q = true → StringBody q s → StringsClosed r →
      StringsClosed (q :: (s ++ q :: r))

theorem StringBody.endsOutside_append (hq : isQuote q = true) (h : StringBody q s) :
    endsOutside (some q) (s ++ q :: r) = endsOutside none r := by
  induction h with
  | nil =>
    rw [List.nil_append, endsOutside_string q (by simpa using ne_backslash_of_isQuote hq)]
    simp
  | plain hne hescape _ ih =>
    rw [List.cons_append, endsOutside_string q (by simpa using hescape),
      if_neg (by simpa using hne), ih]
  | escaped _ ih => exact ih

/-- In a text that may start in a string, that string ends, and so does every one behind it. -/
def ClosedFrom : Option Char → List Char → Prop
  | none, cs => StringsClosed cs
  | some q, cs => ∃ s r, cs = s ++ q :: r ∧ StringBody q s ∧ StringsClosed r

theorem endsOutside_of_stringsClosed (h : StringsClosed cs) : endsOutside none cs = true := by
  induction h with
  | nil => rfl
  | plain hc _ ih => rwa [endsOutside, hc]
  | string hq hs _ ih => rw [endsOutside, if_pos hq, hs.endsOutside_append hq, ih]

theorem closedFrom_of_endsOutside {o : Option Char} (hq : ∀ q ∈ o, isQuote q = true)
    (h : endsOutside o cs = true) : ClosedFrom o cs := by
  fun_induction endsOutside o cs with
  | case1 o =>
    obtain rfl := Option.isNone_iff_eq_none.1 h
    exact .nil
  | case2 c r ih =>
    cases hc : isQuote c with
    | false =>
      rw [hc] at ih h
      exact .plain hc (ih (by simp) h)
    | true =>
      rw [if_pos hc] at ih h
      obtain ⟨s, r, rfl, hs, hr⟩ := ih (by simpa using hc) h
      exact .string hc hs hr
  | case3 q c hc => cases h
  | case4 q c hc d r ih =>
    obtain rfl := eq_of_beq hc
    obtain ⟨s, r, rfl, hs, hr⟩ := ih hq h
    exact ⟨_, r, rfl, hs.escaped, hr⟩
  | case5 q c r hc ih =>
    by_cases heq : c = q
    · subst heq
      rw [if_pos (beq_self_eq_true c)] at ih h
      exact ⟨[], r, rfl, .nil, ih (by simp) h⟩
    · rw [if_neg (by simpa using heq)] at ih h
      obtain ⟨s, r, rfl, hs, hr⟩ := ih hq h
      exact ⟨c :: s, r, rfl, .plain heq (by simpa using hc) hs, hr⟩

theorem stringsClosed_iff : StringsClosed cs ↔ endsOutside none cs = true :=
  ⟨endsOutside_of_stringsClosed, closedFrom_of_endsOutside (by simp)⟩

/-! ## Signs that share a blank -/

/-- The part of a sign in front of the last blank. -/
def signFront (k : Connective) : List Char := [' ', k.mark, k.mark]

/-- A sign that does not begin in front of another one is that one, begins with its last blank or
is behind it. -/
theorem sign_after_sign (h : a ++ k.sign <+: k.sign ++ b) :
    a = [] ∨ a = signFront k ∨ ∃ a', a = k.sign ++ a' ∧ a' ++ k.sign <+: b := by
  have hmark : k.mark ≠ ' ' := by cases k <;> decide
  match a with
  | [] => exact .inl rfl
  | [x] | [x, y] =>
    simp only [Connective.sign, List.cons_append, List.nil_append, List.cons_prefix_cons] at h
    simp [hmark.symm] at h
  | [x, y, z] =>
    simp only [Connective.sign, List.cons_append, List.nil_append, List.cons_prefix_cons] at h
    exact .inr (.inl (by simp [signFront, h]))
  | x :: y :: z :: w :: a' =>
    simp only [Connective.sign, List.cons_append, List.nil_append, List.cons_prefix_cons] at h
    exact .inr (.inr ⟨a', by simp [Connective.sign, h], h.2.2.2.2⟩)

/-! ## The signs at which a text is taken apart -/

/-- The front of a text that has been taken apart, up to a sign between two pieces. -/
def Front (k : Connective) (ps : List (List Char)) (a : List Char) : Prop :=
  ∃ ps₁ ps₂, ps₁ ≠ [] ∧ ps₂ ≠ [] ∧ ps = ps₁ ++ ps₂ ∧ k.sign.intercalate ps₁ = a

theorem not_front_singleton : ¬Front k [p] a := by
  rintro ⟨ps₁, ps₂, h₁, h₂, heq, -⟩
  have hlength := congrArg List.length heq
  have := List.length_pos_iff.2 h₁
  have := List.length_pos_iff.2 h₂
  simp at hlength
  omega

theorem front_cons_iff (hps : ps ≠ []) :
    Front k (p :: ps) a ↔ a = p ∨ ∃ a', a = p ++ k.sign ++ a' ∧ Front k ps a' := by
  constructor
  · rintro ⟨_ | ⟨p', ps₁⟩, ps₂, h₁, h₂, heq, rfl⟩
    · exact absurd rfl h₁
    obtain ⟨rfl, rfl⟩ := List.cons.inj heq
    cases ps₁ with
    | nil => exact .inl (by simp)
    | cons p' ps₁ =>
      exact .inr ⟨_, List.intercalate_cons_cons .., p' :: ps₁, ps₂, by simp, h₂, rfl, rfl⟩
  · rintro (rfl | ⟨_, rfl, ps₁, ps₂, h₁, h₂, rfl, rfl⟩)
    · exact ⟨[a], ps, by simp, hps, rfl, by simp⟩
    · refine ⟨p :: ps₁, ps₂, by simp, h₂, rfl, ?_⟩
      obtain ⟨p', ps₁, rfl⟩ := List.exists_cons_of_ne_nil h₁
      rw [List.intercalate_cons_cons]

/-- The signs behind another sign are those of the text that begins there. -/
theorem signBehind_append_sign {q : Option Char} (hp : endsOutside q p = true) :
    SignBehind k q (p ++ k.sign ++ b) (p ++ k.sign ++ a) ↔ SignBehind k none b a := by
  have hsign : endsOutside none k.sign = true := by cases k <;> rfl
  simp only [SignBehind, List.append_assoc, List.prefix_append_right_inj, endsOutside_append hp,
    endsOutside_append hsign]

/-- A text that has been taken apart was so at every sign outside strings but those that begin with
the last blank of another such sign. -/
theorem Splits.front_iff {q : Option Char} (h : Splits k q cs ps) : Front k ps a ↔
    SignBehind k q cs a ∧ ¬∃ a', a = a' ++ signFront k ∧ Front k ps a' := by
  induction h generalizing a with
  | whole hcut =>
    refine iff_of_false not_front_singleton fun ⟨hsign, _⟩ => hcut ?_
    exact cut_iff_exists_signBehind.2 ⟨_, hsign⟩
  | @cut q p b ps hp hfirst hrest ih =>
    have hlength : (signFront k).length = 3 ∧ k.sign.length = 4 := ⟨rfl, rfl⟩
    simp only [front_cons_iff hrest.ne_nil]
    constructor
    · rintro (rfl | ⟨a, rfl, ha⟩)
      · refine ⟨⟨⟨b, rfl⟩, hp⟩, ?_⟩
        rintro ⟨a', heq, ha'⟩
        have hlengths := congrArg List.length heq
        rcases ha' with rfl | ⟨_, rfl, -⟩ <;> simp only [List.length_append] at hlengths <;> omega
      · obtain ⟨hsign, hapart⟩ := ih.1 ha
        refine ⟨(signBehind_append_sign hp).2 hsign, ?_⟩
        rintro ⟨a', heq, rfl | ⟨a', rfl, ha'⟩⟩
        · have hlengths := congrArg List.length heq
          simp only [List.length_append] at hlengths
          omega
        · exact hapart ⟨a', by simpa using heq, ha'⟩
    · rintro ⟨hsign, hapart⟩
      obtain ⟨d, rfl⟩ := hfirst a hsign
      have hd : d ++ k.sign <+: k.sign ++ b := by
        simpa [List.append_assoc, List.prefix_append_right_inj] using hsign.1
      obtain rfl | rfl | ⟨a, rfl, -⟩ := sign_after_sign hd
      · exact .inl (by simp)
      · exact absurd ⟨p, rfl, .inl rfl⟩ hapart
      · rw [← List.append_assoc] at hsign hapart ⊢
        refine .inr ⟨a, rfl, ih.2 ⟨(signBehind_append_sign hp).1 hsign, ?_⟩⟩
        rintro ⟨a', rfl, ha'⟩
        exact hapart ⟨p ++ k.sign ++ a', by simp, .inr ⟨a', rfl, ha'⟩⟩

/-- A text is taken apart at a sign that is behind a front of the text. -/
def SplitBehind (k : Connective) (cs a : List Char) : Prop := Front k (pieces k cs) a

/-- Taking a text apart loses nothing. Joined by the sign, the pieces are the text. Each of them is
its own only piece, since it has no sign in front of which all strings are closed. The text is taken
apart at every sign in front of which all strings are closed, unless the first blank of the sign is
the last one of a sign at which the text is taken apart. -/
theorem pieces_lossless (k : Connective) (cs : List Char) :
    k.sign.intercalate (pieces k cs) = cs ∧
    (∀ p ∈ pieces k cs, pieces k p = [p] ∧ ∀ a, a ++ k.sign <+: p → ¬StringsClosed a) ∧
    (∀ a, SplitBehind k cs a ↔ a ++ k.sign <+: cs ∧ StringsClosed a ∧
      ¬∃ a', a = a' ++ signFront k ∧ SplitBehind k cs a') := by
  refine ⟨intercalate_pieces k cs, fun p hp => ⟨?_, fun a ha hclosed => ?_⟩, fun a => ?_⟩
  · exact pieces_of_not_cut (not_cut_of_mem_pieces hp)
  · refine not_cut_of_mem_pieces hp (cut_iff_exists_signBehind.2 ⟨a, ha, ?_⟩)
    exact stringsClosed_iff.1 hclosed
  · have hsplits : Splits k none cs (pieces k cs) := piecesFrom_splits none cs
    simp only [SplitBehind, stringsClosed_iff]
    rw [hsplits.front_iff, SignBehind, and_assoc]

/-- Of two signs that share a blank, only the first one counts. -/
example : pieces .and ['a', ' ', '&', '&', ' ', '&', '&', ' ', 'b'] =
    [['a'], ['&', '&', ' ', 'b']] := by
  decide

end Questionnaire.Condition
