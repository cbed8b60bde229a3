import Questionnaire.Condition.Pieces
import Questionnaire.Proofs.Text.Trimming

/-!
# Signs outside strings

A text is taken apart at the signs of a connective that stand outside quoted strings. Where strings
begin and end follows from what is in front (`endsOutside`), so a sign in one piece of a text is a
sign in the text, as long as the piece begins outside strings (`Cut.of_within`).

Taking a text apart loses nothing (`intercalate_pieces`) and overlooks no sign (`pieces_of_not_cut`,
`not_cut_of_mem_pieces`). The pieces of a text, and what stands inside of its negations, begin
outside strings (`within_of_mem_pieces`, `within_unwrap`). So what has once been found without a
sign stays without it, however far it is taken apart.
-/

namespace Questionnaire

open Text

/-- The sign of a connective as it is written, with a blank on either side. -/
def Connective.sign (k : Connective) : List Char := [' ', k.mark, k.mark, ' ']

namespace Condition

variable {k : Connective} {q q' : Option Char} {a b c cs : List Char} {p : List Char}

/-! ## Where strings end -/

/-- Whether a text ends outside strings; `q` is the quote of the string in which it starts. -/
def endsOutside : Option Char → List Char → Bool
  | q, [] => q.isNone
  | none, c :: r => endsOutside (if isQuote c then some c else none) r
  | some q, c :: r =>
    if c == backslash then
      match r with
      | [] => false
      | _ :: r' => endsOutside (some q) r'
    else endsOutside (if c == q then none else some q) r

theorem endsOutside_string {x : Char} {r : List Char} (q : Char) (hx : (x == backslash) = false) :
    endsOutside (some q) (x :: r) = endsOutside (if x == q then none else some q) r := by
  rw [endsOutside.eq_def]
  simp [hx]

theorem endsOutside_append (h : endsOutside q a = true) :
    endsOutside q (a ++ b) = endsOutside none b := by
  fun_induction endsOutside q a with
  | case1 q => cases q <;> simp_all
  | case2 c r ih => simpa [endsOutside] using ih h
  | case3 q c hc => cases h
  | case4 q c hc d r ih => simpa [endsOutside, hc] using ih h
  | case5 q c r hc ih =>
    have hc' : (c == backslash) = false := by simpa using hc
    rw [List.cons_append, endsOutside_string q hc']
    exact ih h

theorem isQuote_of_isBlank {c : Char} (h : isBlank c = true) : isQuote c = false := by
  cases hc : isQuote c with
  | false => rfl
  | true =>
    simp only [isQuote, Bool.or_eq_true, beq_iff_eq] at hc
    rcases hc with rfl | rfl <;> cases h

theorem endsOutside_of_blank : ∀ {w : List Char}, (∀ c ∈ w, isBlank c = true) →
    endsOutside none w = true
  | [], _ => rfl
  | c :: w, h => by
    rw [endsOutside, isQuote_of_isBlank (h c (.head _))]
    exact endsOutside_of_blank fun d hd => h d (.tail _ hd)

/-! ## Parts of a text that begin outside strings -/

/-- A text stands in another one and begins there outside strings. -/
def Within (p cs : List Char) : Prop := ∃ a b, cs = a ++ p ++ b ∧ endsOutside none a = true

theorem Within.refl (cs : List Char) : Within cs cs := ⟨[], [], by simp, rfl⟩

theorem Within.trans (h : Within a b) (h' : Within b c) : Within a c := by
  obtain ⟨w, x, rfl, hw⟩ := h
  obtain ⟨y, z, rfl, hy⟩ := h'
  exact ⟨y ++ w, x ++ z, by simp, (endsOutside_append hy).trans hw⟩

theorem Within.length_le (h : Within p cs) : p.length ≤ cs.length := by
  obtain ⟨a, b, rfl, -⟩ := h
  simp only [List.length_append]
  omega

/-- A text with a sign of a connective outside strings; `q` is the quote of the string in which the
text starts. -/
def Cut (k : Connective) (q : Option Char) (cs : List Char) : Prop :=
  ∃ a b, cs = a ++ k.sign ++ b ∧ endsOutside q a = true

theorem Cut.of_within (hp : Within p cs) (h : Cut k none p) : Cut k none cs := by
  obtain ⟨w, x, rfl, hw⟩ := hp
  obtain ⟨a, b, rfl, ha⟩ := h
  exact ⟨w ++ a, b ++ x, by simp, (endsOutside_append hw).trans ha⟩

/-- A sign of a connective stands behind the front `a` of a text, outside strings. -/
def SignBehind (k : Connective) (q : Option Char) (cs a : List Char) : Prop :=
  a ++ k.sign <+: cs ∧ endsOutside q a = true

theorem cut_iff_exists_signBehind : Cut k q cs ↔ ∃ a, SignBehind k q cs a := by
  constructor
  · rintro ⟨a, b, rfl, ha⟩
    exact ⟨a, ⟨b, rfl⟩, ha⟩
  · rintro ⟨a, ⟨b, rfl⟩, ha⟩
    exact ⟨a, b, rfl, ha⟩

/-! ## Taking a text apart -/

/-- The pieces of a text between the signs of a connective that stand outside strings. The text is
cut at the first of them, and what is behind that is taken apart in the same way. -/
inductive Splits (k : Connective) : Option Char → List Char → List (List Char) → Prop
  | whole {q : Option Char} {cs : List Char} : ¬Cut k q cs → Splits k q cs [cs]
  | cut {q : Option Char} {a b : List Char} {ps : List (List Char)} :
      endsOutside q a = true → (∀ a', SignBehind k q (a ++ k.sign ++ b) a' → a <+: a') →
      Splits k none b ps → Splits k q (a ++ k.sign ++ b) (a :: ps)

namespace Splits

variable {w : List Char} {ps : List (List Char)}

/-- There is no sign in front of the first one. -/
theorem not_cut_of_first (hfirst : ∀ a', SignBehind k q (a ++ k.sign ++ b) a' → a <+: a') :
    ¬Cut k q a := by
  rintro ⟨a', b', rfl, ha'⟩
  have hle := (hfirst a' ⟨⟨b' ++ k.sign ++ b, by simp⟩, ha'⟩).length_le
  simp only [List.length_append, Connective.sign, List.length_cons] at hle
  omega

/-- Behind characters after which strings go on as they do in a text, and in which no sign begins,
stand the signs of the text. -/
theorem signBehind_append (hstep : ∀ r, endsOutside q (w ++ r) = endsOutside q' r)
    (hstart : ∀ a, SignBehind k q (w ++ cs) a → w <+: a) (h : SignBehind k q (w ++ cs) a) :
    ∃ a', a = w ++ a' ∧ SignBehind k q' cs a' := by
  obtain ⟨a', rfl⟩ := hstart a h
  obtain ⟨hpre, ha⟩ := h
  rw [List.append_assoc, List.prefix_append_right_inj] at hpre
  exact ⟨a', rfl, hpre, (hstep a').symm.trans ha⟩

theorem foldr_extendFirst (w p : List Char) (ps : List (List Char)) :
    w.foldr extendFirst (p :: ps) = (w ++ p) :: ps := by
  induction w with
  | nil => rfl
  | cons x w ih => rw [List.foldr_cons, ih]; rfl

/-- Such characters stand in front of the first piece. -/
theorem append (hstep : ∀ r, endsOutside q (w ++ r) = endsOutside q' r)
    (hstart : ∀ a, SignBehind k q (w ++ cs) a → w <+: a) (h : Splits k q' cs ps) :
    Splits k q (w ++ cs) (w.foldr extendFirst ps) := by
  cases h with
  | whole hcut =>
    rw [foldr_extendFirst]
    refine .whole fun hcut' => hcut ?_
    obtain ⟨a, ha⟩ := cut_iff_exists_signBehind.1 hcut'
    obtain ⟨a', -, ha'⟩ := signBehind_append hstep hstart ha
    exact cut_iff_exists_signBehind.2 ⟨a', ha'⟩
  | @cut _ a b ps ha hfirst hrest =>
    rw [foldr_extendFirst]
    have hassoc : w ++ (a ++ k.sign ++ b) = (w ++ a) ++ k.sign ++ b := by simp
    rw [hassoc] at hstart ⊢
    refine .cut ((hstep _).trans ha) (fun a' ha' => ?_) hrest
    rw [← hassoc] at hstart ha'
    obtain ⟨a'', rfl, ha''⟩ := signBehind_append hstep hstart ha'
    exact (List.prefix_append_right_inj w).2 (hfirst a'' ha'')

/-- A character of a string, or one outside strings at which no sign begins. -/
theorem cons {x : Char} (hstep : ∀ r, endsOutside q (x :: r) = endsOutside q' r)
    (hstart : q = none → ¬k.sign <+: x :: cs) (h : Splits k q' cs ps) :
    Splits k q (x :: cs) (extendFirst x ps) := by
  refine append (w := [x]) hstep (fun a ⟨hpre, ha⟩ => ?_) h
  cases a with
  | nil =>
    have hq : q = none := by simpa [endsOutside] using ha
    exact absurd hpre (hstart hq)
  | cons y a =>
    obtain ⟨rfl, -⟩ := List.cons_prefix_cons.1 hpre
    exact ⟨a, rfl⟩

/-- An escaped character of a string. -/
theorem escaped {q d : Char} (h : Splits k (some q) cs ps) :
    Splits k (some q) (backslash :: d :: cs) (extendFirst backslash (extendFirst d ps)) := by
  refine append (w := [backslash, d]) (fun _ => rfl) (fun a ⟨hpre, ha⟩ => ?_) h
  match a, ha with
  | x :: y :: a, _ =>
    obtain ⟨hx, hpre⟩ := List.cons_prefix_cons.1 hpre
    obtain ⟨hy, -⟩ := List.cons_prefix_cons.1 hpre
    exact ⟨a, by simp [hx, hy]⟩
  | [x], ha =>
    rw [(List.cons_prefix_cons.1 hpre).1] at ha
    cases ha

theorem ne_nil (h : Splits k q cs ps) : ps ≠ [] := by
  cases h <;> exact List.cons_ne_nil _ _

/-- Nothing is lost. -/
theorem intercalate_eq (h : Splits k q cs ps) : k.sign.intercalate ps = cs := by
  induction h with
  | whole _ => simp
  | @cut q a b ps _ _ hrest ih =>
    obtain ⟨p, ps, rfl⟩ := List.exists_cons_of_ne_nil hrest.ne_nil
    rw [List.intercalate_cons_cons, ih, List.append_assoc]

/-- No sign is overlooked, and the pieces begin outside strings. -/
theorem mem (h : Splits k q cs ps) (hq : q = none) : ∀ p ∈ ps, ¬Cut k none p ∧ Within p cs := by
  induction h with
  | whole hcut =>
    subst hq
    intro p hp
    obtain rfl := List.mem_singleton.1 hp
    exact ⟨hcut, .refl p⟩
  | @cut q a b ps ha hfirst hrest ih =>
    subst hq
    refine List.forall_mem_cons.2
      ⟨⟨not_cut_of_first hfirst, [], k.sign ++ b, by simp, rfl⟩, fun p hp => ?_⟩
    obtain ⟨hcut', hp'⟩ := ih rfl p hp
    have hsign : endsOutside none k.sign = true := by cases k <;> rfl
    exact ⟨hcut', hp'.trans
      ⟨a ++ k.sign, [], by simp, (endsOutside_append ha).trans hsign⟩⟩

/-- Pieces other than the whole text are shorter than it. -/
theorem length_lt (h : Splits k q cs ps) (hps : 2 ≤ ps.length) : ∀ p ∈ ps, p.length < cs.length := by
  induction h with
  | whole _ => simp at hps
  | @cut q a b ps _ _ hrest ih =>
    have hsign : k.sign.length = 4 := rfl
    simp only [List.length_append, hsign]
    refine List.forall_mem_cons.2 ⟨by omega, fun p hp => ?_⟩
    by_cases hps' : 2 ≤ ps.length
    · have := ih hps' p hp
      omega
    · cases hrest with
      | whole _ =>
        obtain rfl := List.mem_singleton.1 hp
        omega
      | cut _ _ hrest' =>
        have := List.length_pos_iff.2 hrest'.ne_nil
        simp only [List.length_cons] at hps'
        omega

end Splits

theorem sign_prefix_iff {x : Char} {r : List Char} :
    k.sign <+: x :: r ↔ x = ' ' ∧ ∃ r', r = k.mark :: k.mark :: ' ' :: r' := by
  simp only [Connective.sign, List.cons_prefix_cons]
  constructor
  · rintro ⟨rfl, r', rfl⟩
    exact ⟨rfl, r', rfl⟩
  · rintro ⟨rfl, r', rfl⟩
    exact ⟨rfl, r', rfl⟩

theorem piecesFrom_splits (q : Option Char) (cs : List Char) :
    Splits k q cs (piecesFrom k.mark q cs) := by
  have hshort {q : Option Char} {cs : List Char} (h : cs.length < 4) : ¬Cut k q cs := by
    rintro ⟨a, b, rfl, -⟩
    simp [Connective.sign] at h
    omega
  fun_induction piecesFrom k.mark q cs with
  | case1 q => exact .whole (hshort (by simp))
  | case2 q c hc => exact .whole (hshort (by simp))
  | case3 q c hc d r ih =>
    obtain rfl := eq_of_beq hc
    exact ih.escaped
  | case4 q c r hc ih =>
    exact ih.cons (fun r => endsOutside_string q (by simpa using hc)) nofun
  | case5 c r hc ih =>
    refine ih.cons (fun r => by rw [endsOutside, if_pos hc]) fun _ hpre => ?_
    rw [(sign_prefix_iff.1 hpre).1] at hc
    cases hc
  | case6 c hc a b d r hsign ih =>
    simp only [Bool.and_eq_true, beq_iff_eq] at hsign
    obtain ⟨⟨⟨rfl, rfl⟩, rfl⟩, rfl⟩ := hsign
    exact .cut (a := []) rfl (fun _ _ => List.nil_prefix) ih
  | case7 c hc a b d r hsign ih =>
    refine ih.cons (fun r => by rw [endsOutside, if_neg hc]) fun _ hpre => ?_
    obtain ⟨rfl, r', heq⟩ := sign_prefix_iff.1 hpre
    cases heq
    simp at hsign
  | case8 c hc r hr ih =>
    refine ih.cons (fun r => by rw [endsOutside, if_neg hc]) fun _ hpre => ?_
    obtain ⟨-, r', rfl⟩ := sign_prefix_iff.1 hpre
    exact hr _ _ _ _ rfl

/-- Joining the pieces of a text gives the text back. -/
theorem intercalate_pieces (k : Connective) (cs : List Char) :
    k.sign.intercalate (pieces k cs) = cs :=
  (piecesFrom_splits none cs).intercalate_eq

theorem pieces_of_not_cut (h : ¬Cut k none cs) : pieces k cs = [cs] := by
  have hsplits : Splits k none cs (pieces k cs) := piecesFrom_splits none cs
  generalize pieces k cs = ps at hsplits
  cases hsplits with
  | whole _ => rfl
  | cut ha _ _ => exact absurd ⟨_, _, rfl, ha⟩ h

theorem not_cut_of_mem_pieces (hp : p ∈ pieces k cs) : ¬Cut k none p :=
  ((piecesFrom_splits none cs).mem rfl p hp).1

theorem within_of_mem_pieces (hp : p ∈ pieces k cs) : Within p cs :=
  ((piecesFrom_splits none cs).mem rfl p hp).2

/-- A text has several pieces exactly if it has a sign outside strings. -/
theorem cut_iff : Cut k none cs ↔ 2 ≤ (pieces k cs).length := by
  constructor
  · intro hcut
    have hpos : 0 < (pieces k cs).length :=
      List.length_pos_iff.2 (piecesFrom_splits (k := k) none cs).ne_nil
    by_contra hlt
    obtain ⟨p, hp⟩ := List.length_eq_one_iff.1 (show (pieces k cs).length = 1 by omega)
    have hmem : p ∈ pieces k cs := by simp [hp]
    have hcs : p = cs := by simpa [hp] using intercalate_pieces k cs
    subst hcs
    exact not_cut_of_mem_pieces hmem hcut
  · intro hlen
    by_contra hcut
    rw [pieces_of_not_cut hcut] at hlen
    simp at hlen

theorem length_lt_of_mem_pieces (h : Cut k none cs) (hp : p ∈ pieces k cs) :
    p.length < cs.length :=
  (piecesFrom_splits none cs).length_lt (cut_iff.1 h) p hp

/-! ## What stands inside of negations -/

theorem within_trim (cs : List Char) : Within (trim cs) cs := by
  obtain ⟨w, w', hcs, hw, -⟩ := exists_blanks cs
  exact ⟨w, w', hcs, endsOutside_of_blank hw⟩

theorem closedAtEnd?_eq_some {d : Nat} (h : closedAtEnd? d q cs = some p) : cs = p ++ [')'] := by
  fun_induction closedAtEnd? d q cs generalizing p with
  | case1 => cases h
  | case2 => cases h
  | case3 _ _ _ _ _ _ ih =>
    obtain ⟨p, hp, rfl⟩ := Option.map_eq_some_iff.1 h
    rw [ih hp]
    rfl
  | case7 c r hquote hopen hclose hr =>
    obtain rfl := List.isEmpty_iff.1 hr
    rw [eq_of_beq hclose]
    cases h
    rfl
  | case8 => cases h
  | case4 _ _ _ _ _ ih | case5 _ _ _ _ ih | case6 _ _ _ _ _ ih | case9 _ _ _ _ _ _ ih
  | case10 _ _ _ _ _ _ ih =>
    obtain ⟨p, hp, rfl⟩ := Option.map_eq_some_iff.1 h
    rw [ih hp]
    rfl

theorem insideNegation?_eq_some (h : insideNegation? cs = some p) :
    cs = '!' :: '(' :: (p ++ [')']) := by
  unfold insideNegation? at h
  split at h
  · rw [closedAtEnd?_eq_some h]
  · cases h

theorem within_of_insideNegation? (h : insideNegation? cs = some p) : Within p cs :=
  ⟨['!', '('], [')'], insideNegation?_eq_some h, rfl⟩

theorem within_unwrap (cs : List Char) : Within (unwrap cs).2 cs := by
  have hwithin (fuel : Nat) : ∀ odd cs, Within (unwrapWithin fuel odd cs).2 cs := by
    induction fuel with
    | zero => exact fun _ cs => .refl cs
    | succ fuel ih =>
      intro odd cs
      unfold unwrapWithin
      split
      · next inner hinner =>
        exact ((ih _ _).trans (within_trim inner)).trans (within_of_insideNegation? hinner)
      · exact .refl cs
  exact hwithin _ _ _

end Condition

end Questionnaire
