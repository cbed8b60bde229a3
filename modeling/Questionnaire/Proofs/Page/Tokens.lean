import Mathlib.Data.List.TakeWhile
import Questionnaire.Page.Wording

/-!
# Tokens in a text

A text is cut into pieces from left to right: where a token begins it is taken as a whole, and
elsewhere one character is (`Wording.Cut`). The pieces that the scanner finds are the only ones that
a text can be cut into (`Wording.Cut.pieces_eq`), provided that what is found as a token is a
beginning of the text and not empty (`Wording.Finds`), as it is for all kinds of tokens here.

Where no token begins in a text, whatever follows it, its characters are pieces of their own
(`Wording.Cut.chars`).
-/

namespace Questionnaire.Wording

section Cutting

variable {α : Type} {token? : List Char → Option (List Char × α)} {cs w r : List Char} {c : Char}
  {name : α} {ps : List (Piece α)}

/-- What is found as a token is a beginning of the text that is not empty. -/
def Finds (token? : List Char → Option (List Char × α)) : Prop :=
  ∀ {cs w name}, token? cs = some (w, name) → w ≠ [] ∧ w <+: cs

/-- The pieces of a text from left to right. -/
inductive Cut (token? : List Char → Option (List Char × α)) : List Char → List (Piece α) → Prop
  | nil : Cut token? [] []
  | char {c : Char} {r : List Char} {ps : List (Piece α)} :
      token? (c :: r) = none → Cut token? r ps → Cut token? (c :: r) (.char c :: ps)
  | token {w r : List Char} {name : α} {ps : List (Piece α)} :
      token? (w ++ r) = some (w, name) → Cut token? r ps →
        Cut token? (w ++ r) (.token w name :: ps)

theorem piecesFrom_eq (token? : List Char → Option (List Char × α)) :
    ∀ (n : Nat) (cs : List Char), piecesFrom token? n cs = pieces token? (cs.drop n)
  | 0, _ => rfl
  | _ + 1, [] => rfl
  | n + 1, _ :: r => piecesFrom_eq token? n r

theorem pieces_of_token (hw : w ≠ []) (h : token? (w ++ r) = some (w, name)) :
    pieces token? (w ++ r) = .token w name :: pieces token? r := by
  obtain ⟨c, u, rfl⟩ := List.exists_cons_of_ne_nil hw
  rw [List.cons_append] at h
  rw [pieces, List.cons_append, piecesFrom, h]
  simp [piecesFrom_eq]

theorem pieces_of_none (h : token? (c :: r) = none) :
    pieces token? (c :: r) = .char c :: pieces token? r := by
  rw [pieces, piecesFrom, h]
  rfl

theorem cut_pieces (hfinds : Finds token?) : ∀ cs : List Char, Cut token? cs (pieces token? cs)
  | [] => .nil
  | c :: r => by
    cases h : token? (c :: r) with
    | none =>
      rw [pieces_of_none h]
      exact .char h (cut_pieces hfinds r)
    | some found =>
      obtain ⟨w, name⟩ := found
      obtain ⟨hw, u, hu⟩ := hfinds h
      have hpos := List.length_pos_iff.2 hw
      have hlen := congrArg List.length hu
      rw [← hu] at h ⊢
      rw [pieces_of_token hw h]
      exact .token h (cut_pieces hfinds u)
termination_by cs => cs.length
decreasing_by
  · exact Nat.lt_succ_self _
  · rw [List.length_append, List.length_cons] at hlen
    simp only [List.length_cons]
    omega

/-- A text is cut in one way. -/
theorem Cut.pieces_eq (hfinds : Finds token?) (h : Cut token? cs ps) : pieces token? cs = ps := by
  induction h with
  | nil => rfl
  | char h _ ih => rw [pieces_of_none h, ih]
  | token h _ ih => rw [pieces_of_token (hfinds h).1 h, ih]

/-- Nothing is lost when a text is cut. -/
theorem Cut.flatMap_written (h : Cut token? cs ps) : ps.flatMap Piece.written = cs := by
  induction h with
  | nil => rfl
  | char _ _ ih => rw [List.flatMap_cons, ih]; rfl
  | token _ _ ih => rw [List.flatMap_cons, ih]; rfl

/-- A text in which no token begins is cut into its characters. -/
theorem Cut.chars (hr : Cut token? r ps) : ∀ {w : List Char},
    (∀ s, s <:+ w → s ≠ [] → token? (s ++ r) = none) → Cut token? (w ++ r) (w.map .char ++ ps)
  | [], _ => hr
  | _ :: w, h => .char (h _ (List.suffix_refl _) (List.cons_ne_nil _ _))
      (hr.chars fun s hs => h s (hs.trans (List.suffix_cons _ w)))

end Cutting

/-! ## The kinds of tokens -/

variable {cs w r name : List Char} {opening key : String}

theorem after?_eq_some_iff {opening : List Char} :
    after? opening cs = some r ↔ cs = opening ++ r := by
  rw [after?]
  constructor
  · intro h
    split at h
    · next hpre =>
      obtain ⟨u, rfl⟩ := List.isPrefixOf_iff_prefix.1 hpre
      rw [List.drop_left] at h
      rw [Option.some.inj h]
    · cases h
  · rintro rfl
    rw [if_pos (List.isPrefixOf_iff_prefix.2 (List.prefix_append _ _)), List.drop_left]

/-- The run of characters of a kind at the beginning of a text, and where it ends. -/
theorem eq_takeWhile_append {p : Char → Bool} (h : cs.dropWhile p = r) :
    cs = cs.takeWhile p ++ r := by
  rw [← h, List.takeWhile_append_dropWhile]

theorem takeWhile_append_cons {p : Char → Bool} {c : Char} (hname : ∀ x ∈ name, p x = true)
    (hc : p c = false) : (name ++ c :: r).takeWhile p = name := by
  rw [List.takeWhile_append_of_pos hname]
  simp [hc]

theorem dropWhile_append_cons {p : Char → Bool} {c : Char} (hname : ∀ x ∈ name, p x = true)
    (hc : p c = false) : (name ++ c :: r).dropWhile p = c :: r := by
  rw [List.dropWhile_append_of_pos hname]
  simp [hc]

/-- A token in double braces: its name is not empty and has no braces. -/
theorem bracedToken?_eq_some_iff : bracedToken? opening cs = some (w, key) ↔
    ∃ name r, w = opening.toList ++ (name ++ ['}', '}']) ∧ cs = w ++ r ∧
      key = String.ofList name ∧ name ≠ [] ∧ ∀ c ∈ name, isBrace c = false := by
  rw [bracedToken?, Option.bind_eq_some_iff]
  constructor
  · rintro ⟨u, hu, h⟩
    obtain rfl := after?_eq_some_iff.1 hu
    dsimp only at h
    split at h
    · next r hr =>
      split at h
      · cases h
      · next hne =>
        cases h
        refine ⟨_, r, by rw [List.append_assoc], ?_, rfl, by simpa using hne, fun c hc => ?_⟩
        · conv => lhs; rw [eq_takeWhile_append hr]
          simp
        · simpa using List.mem_takeWhile_imp hc
    · cases h
  · rintro ⟨name, r, rfl, rfl, rfl, hne, hname⟩
    have hname : ∀ c ∈ name, (!isBrace c) = true := by simpa using hname
    have hclose : (!isBrace '}') = false := rfl
    refine ⟨name ++ '}' :: '}' :: r, after?_eq_some_iff.2 (by simp), ?_⟩
    dsimp only
    rw [dropWhile_append_cons hname hclose, takeWhile_append_cons hname hclose]
    simp [hne]

/-- A token in double braces begins with the first character of its opening. -/
theorem bracedToken?_of_ne {c o : Char} (hopening : opening.toList.head? = some o) (h : c ≠ o) :
    bracedToken? opening (c :: r) = none := by
  refine Option.eq_none_iff_forall_ne_some.2 fun found hfound => ?_
  obtain ⟨name, u, hw, hcs, -⟩ := bracedToken?_eq_some_iff.1 hfound
  obtain ⟨rest, hrest⟩ := List.head?_eq_some_iff.1 hopening
  rw [hw, hrest] at hcs
  exact h (List.cons.inj hcs).1

/-- A token for an answer: a name without colons and a field, neither of them empty nor with
braces. -/
theorem pipeToken?_eq_some_iff {token : String × String} : pipeToken? cs = some (w, token) ↔
    ∃ name field r, w = pipeOpening ++ (name ++ ':' :: (field ++ ['}'])) ∧ cs = w ++ r ∧
      token = (String.ofList name, String.ofList field) ∧ name ≠ [] ∧ field ≠ [] ∧
      (∀ c ∈ name, isBrace c = false ∧ c ≠ ':') ∧ ∀ c ∈ field, isBrace c = false := by
  rw [pipeToken?, Option.bind_eq_some_iff]
  constructor
  · rintro ⟨u, hu, h⟩
    obtain rfl := after?_eq_some_iff.1 hu
    dsimp only at h
    split at h
    · next v hv =>
      split at h
      · next r hr =>
        split at h
        · cases h
        · next hne =>
          cases h
          rw [Bool.or_eq_true, not_or] at hne
          refine ⟨_, _, r, by simp, ?_, rfl, by simpa using hne.1, by simpa using hne.2,
            fun c hc => ?_, fun c hc => ?_⟩
          · conv => lhs; rw [eq_takeWhile_append hv, eq_takeWhile_append hr]
            simp
          · simpa using List.mem_takeWhile_imp hc
          · simpa using List.mem_takeWhile_imp hc
      · cases h
    · cases h
  · rintro ⟨name, field, r, rfl, rfl, rfl, hname, hfield, hnames, hfields⟩
    have hnames : ∀ c ∈ name, (!isBrace c && c != ':') = true := by simpa using hnames
    have hfields : ∀ c ∈ field, (!isBrace c) = true := by simpa using hfields
    have hcolon : (!isBrace ':' && ':' != ':') = false := rfl
    have hclose : (!isBrace '}') = false := rfl
    refine ⟨name ++ ':' :: (field ++ '}' :: r), after?_eq_some_iff.2 (by simp), ?_⟩
    dsimp only
    rw [dropWhile_append_cons hnames hcolon, takeWhile_append_cons hnames hcolon]
    simp only [dropWhile_append_cons hfields hclose, takeWhile_append_cons hfields hclose]
    simp [hname, hfield]

theorem finds_bracedToken? (opening : String) : Finds (bracedToken? opening) := by
  intro cs w key h
  obtain ⟨name, r, rfl, rfl, -⟩ := bracedToken?_eq_some_iff.1 h
  exact ⟨by simp, List.prefix_append _ _⟩

theorem finds_embeddedToken? : Finds embeddedToken? := finds_bracedToken? _

theorem finds_loopToken? : Finds loopToken? := finds_bracedToken? _

theorem finds_pipeToken? : Finds pipeToken? := by
  intro cs w token h
  obtain ⟨name, field, r, rfl, rfl, -⟩ := pipeToken?_eq_some_iff.1 h
  exact ⟨by simp, List.prefix_append _ _⟩

end Questionnaire.Wording
