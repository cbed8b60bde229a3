import Mathlib.Logic.Function.Iterate
import Questionnaire.Proofs.Condition.Balance

/-!
# Composing texts

Texts that are read can be composed to larger ones without regard to what they contain. Joining them
with a sign takes them as the pieces (`negatable_join`), since neither their strings nor their
parentheses reach beyond them, and wrapping one in a negation negates what it is read as, or takes a
negation off it (`negatable_wrapped`). Blanks at the ends of the texts do not matter
(`exists_trimmed`).

So the condition of a composed text is composed of the conditions of its parts (`parse_composed`).
-/

namespace Questionnaire

namespace Condition

open Text

variable {ks : List Connective} {k : Connective} {w cs t : List Char} {ts : List (List Char)}
  {c : Condition} {conds : List Condition}

/-! ## Blanks at the ends -/

/-- Trimming joined texts at the end trims the last one. -/
theorem exists_trimmedEnd : ∀ {ts : List (List Char)}, ts ≠ [] → (∀ t ∈ ts, trimEnd t ≠ []) →
    trimEnd (k.sign.intercalate ts) ≠ [] ∧
    ∃ ts', trimEnd (k.sign.intercalate ts) = k.sign.intercalate ts' ∧
      List.Forall₂ (fun t t' => trim t' = trim t) ts ts'
  | [t], _, ht => by
    have ht := ht t (.head _)
    exact ⟨by simpa using ht, [trimEnd t], by simp, .cons (trim_trimEnd t) .nil⟩
  | t :: t' :: ts, _, ht => by
    obtain ⟨hne, us, hus, hall⟩ :=
      exists_trimmedEnd (List.cons_ne_nil t' ts) fun x hx => ht x (.tail _ hx)
    rw [List.intercalate_cons_cons, trimEnd_append hne, hus]
    refine ⟨by simp [Connective.sign], t :: us, ?_, .cons rfl hall⟩
    cases hall with
    | cons _ _ => rw [List.intercalate_cons_cons]

/-- Trimming joined texts trims the first one and the last one. -/
theorem exists_trimmed (hne : ts ≠ []) (ht : ∀ t ∈ ts, trim t ≠ []) :
    ∃ ts', trim (k.sign.intercalate ts) = k.sign.intercalate ts' ∧
      List.Forall₂ (fun t t' => trim t' = trim t) ts ts' := by
  have hblank {t : List Char} (ht : trim t ≠ []) : ¬∀ c ∈ t, isBlank c = true := by
    intro hall
    exact ht (by rw [trim, trimStart_eq_nil_iff.2 hall]; rfl)
  obtain ⟨t, ts, rfl⟩ := List.exists_cons_of_ne_nil hne
  have hstart : trimStart (k.sign.intercalate (t :: ts)) =
      k.sign.intercalate (trimStart t :: ts) := by
    have hfirst : trimStart t ≠ [] :=
      fun hnil => hblank (ht t (.head _)) (trimStart_eq_nil_iff.1 hnil)
    cases ts with
    | nil => simp
    | cons t' ts => simp [List.intercalate_cons_cons, trimStart_append hfirst]
  have hends : ∀ u ∈ trimStart t :: ts, trimEnd u ≠ [] := by
    refine List.forall_mem_cons.2 ⟨ht t (.head _), fun u hu hnil => ?_⟩
    exact hblank (ht u (.tail _ hu)) (trimEnd_eq_nil_iff.1 hnil)
  obtain ⟨-, us, hus, hall⟩ := exists_trimmedEnd (k := k) (List.cons_ne_nil _ _) hends
  refine ⟨us, by rw [trim, hstart, hus], ?_⟩
  cases hall with
  | cons hfirst hrest => exact .cons (hfirst.trans (trim_trimStart t)) hrest

/-! ## Joining -/

section

variable {inner whole : List Char → Except ParseError Condition}

theorem negatable_of_trim_eq {cs' : List Char} (h : trim cs' = trim cs) :
    negatable inner cs' = negatable inner cs := by
  simp only [negatable, h]

theorem trim_ne_nil_of_negatable (h : negatable inner cs = .ok c) : trim cs ≠ [] := by
  intro hnil
  rw [negatable, hnil] at h
  cases h

/-- A text that is not wrapped in a negation is read as a whole. -/
theorem negatable_of_unwrapped (htrim : trim cs = cs) (hcs : cs ≠ [])
    (h : insideNegation? cs = none) : negatable inner cs = inner cs := by
  obtain ⟨x, r, rfl⟩ := List.exists_cons_of_ne_nil hcs
  have hunwrap : unwrap (x :: r) = (false, x :: r) := by
    simp [unwrap, unwrapWithin, h]
  simp only [negatable, htrim, hunwrap]
  cases inner (x :: r) <;> rfl

/-- A negation at the start of joined texts does not wrap them all. -/
theorem insideNegation?_append_sign (h : Balanced ks 0 t 0) (rest : List Char) :
    insideNegation? (t ++ k.sign ++ rest) = none := by
  unfold insideNegation?
  split
  · next r hr =>
    rcases t with _ | ⟨x, _ | ⟨y, t⟩⟩
    · cases hr
    · cases hr
    · simp only [List.cons_append, List.cons.injEq, List.append_assoc] at hr
      obtain ⟨rfl, rfl, rfl⟩ := hr
      exact closedAtEnd?_eq_none h.of_exclamation.of_opening (by simp [Connective.sign])
  · rfl

/-- Balanced texts are the pieces of the text that joins them. -/
theorem pieces_intercalate (hk : k ∈ ks) : ∀ {ts : List (List Char)}, ts ≠ [] →
    (∀ t ∈ ts, Balanced ks 0 t 0) → pieces k (k.sign.intercalate ts) = ts
  | [t], _, ht => by
    rw [List.intercalate_singleton, pieces_of_not_cut ((ht t (.head _)).not_cut hk)]
  | t :: t' :: ts, _, ht => by
    have hrest := pieces_intercalate hk (List.cons_ne_nil t' ts) fun x hx => ht x (.tail _ hx)
    have hsign : piecesFrom k.mark none (k.sign ++ k.sign.intercalate (t' :: ts)) =
        [] :: pieces k (k.sign.intercalate (t' :: ts)) := by
      simp [Connective.sign, piecesFrom, pieces, isQuote, singleQuote, doubleQuote]
    rw [List.intercalate_cons_cons, List.append_assoc, pieces,
      piecesFrom_append (ht t (.head _)) hk (.inr (List.prefix_append _ _)), hsign,
      Splits.foldr_extendFirst, List.append_nil, hrest]

/-- Texts that are read as parts are joined to a text that is read as their conditions joined. -/
theorem negatable_join (hk : k ∈ ks) (hlen : 2 ≤ ts.length)
    (hbalanced : ∀ {cs c}, negatable inner cs = .ok c → Balanced ks 0 cs 0)
    (hall : List.Forall₂ (fun t c => negatable inner t = .ok c) ts conds) :
    negatable (joinedBy k (negatable inner) whole) (k.sign.intercalate ts) =
      .ok (.joined k conds) := by
  have hread := (exists_of_forall₂ hall).1
  have hne : ts ≠ [] := List.ne_nil_of_length_pos (by omega)
  obtain ⟨us, htrim, hus⟩ := exists_trimmed (k := k) hne fun t ht =>
    (hread t ht).elim fun _ h => trim_ne_nil_of_negatable h
  have hall' : List.Forall₂ (fun t c => negatable inner t = .ok c) us conds := by
    clear hread hlen hne htrim
    induction hus generalizing conds with
    | nil => cases hall; exact .nil
    | cons htu _ ih =>
      cases hall with
      | cons hc hall => exact .cons ((negatable_of_trim_eq htu).trans hc) (ih hall)
  have hbal : ∀ u ∈ us, Balanced ks 0 u 0 := fun u hu =>
    ((exists_of_forall₂ hall').1 u hu).elim fun _ h => hbalanced h
  have hlen' : 2 ≤ us.length := by rwa [← hus.length_eq]
  have hus_ne : us ≠ [] := List.ne_nil_of_length_pos (by omega)
  have hpieces : pieces k (k.sign.intercalate us) = us := pieces_intercalate hk hus_ne hbal
  have hwhole : insideNegation? (k.sign.intercalate us) = none ∧ k.sign.intercalate us ≠ [] := by
    match us, hlen', hbal with
    | u :: u' :: us, _, hbal =>
      rw [List.intercalate_cons_cons]
      exact ⟨insideNegation?_append_sign (hbal u (.head _)) _, by simp [Connective.sign]⟩
  rw [← negatable_of_trim_eq (trim_trim _), htrim,
    negatable_of_unwrapped (by rw [← htrim, trim_trim]) hwhole.2 hwhole.1,
    joinedBy_eq_ok_iff (cut_iff.2 (by rwa [hpieces])), hpieces]
  exact ⟨conds, rfl, hall'⟩

/-! ## Wrapping in a negation -/

/-- The text of the negation of a text. -/
def wrapped (cs : List Char) : List Char := '!' :: '(' :: (cs ++ [')'])

/-- The negation of a condition, or what it negates. -/
def toggled : Condition → Condition
  | .negated c => c
  | c => .negated c

theorem toggled_of_ne_negated (h : ∀ e, c ≠ .negated e) : c.toggled = .negated c := by
  cases c with
  | negated e => exact absurd rfl (h e)
  | _ => rfl

theorem trim_wrapped (cs : List Char) : trim (wrapped cs) = wrapped cs :=
  trim_eq_self (r := '(' :: cs) rfl rfl

theorem insideNegation?_wrapped (h : Balanced ks 0 cs 0) :
    insideNegation? (wrapped cs) = some cs := by
  have hend : closedAtEnd? 0 none [')'] = some [] := rfl
  rw [wrapped, insideNegation?, closedAtEnd?_append h, hend, Option.map_some, List.append_nil]

theorem length_trim_inside {p : List Char} (h : insideNegation? cs = some p) :
    (trim p).length + 3 ≤ cs.length := by
  have hlen := (within_trim p).length_le
  rw [insideNegation?_eq_some h]
  simp only [List.length_cons, List.length_append]
  omega

/-- Taking off negations does not depend on the fuel, and whether their number is odd depends on
whether it was so far. -/
theorem unwrapWithin_eq : ∀ (fuel fuel' : Nat) (odd odd' : Bool) {cs : List Char},
    cs.length ≤ fuel → cs.length ≤ fuel' → unwrapWithin fuel odd cs =
      ((unwrapWithin fuel' odd' cs).1 ^^ odd ^^ odd', (unwrapWithin fuel' odd' cs).2)
  | fuel, fuel', odd, odd', [], _, _ => by
    have hnil (fuel : Nat) (odd : Bool) : unwrapWithin fuel odd [] = (odd, []) := by
      cases fuel <;> rfl
    rw [hnil, hnil]
    cases odd <;> cases odd' <;> rfl
  | fuel + 1, fuel' + 1, odd, odd', c :: r, hfuel, hfuel' => by
    unfold unwrapWithin
    split
    · next p hp =>
      have hlen := length_trim_inside hp
      rw [unwrapWithin_eq fuel fuel' (!odd) (!odd') (by omega) (by omega)]
      simp
    · cases odd <;> cases odd' <;> rfl

theorem unwrap_wrapped (h : Balanced ks 0 cs 0) :
    unwrap (wrapped cs) = (!(unwrap (trim cs)).1, (unwrap (trim cs)).2) := by
  have hlen : (wrapped cs).length = cs.length + 3 := by simp [wrapped]
  have htrim := (within_trim cs).length_le
  rw [unwrap, hlen, unwrapWithin, insideNegation?_wrapped h]
  show unwrapWithin (cs.length + 2) true (trim cs) = _
  rw [unwrapWithin_eq (cs.length + 2) (trim cs).length true false (by omega) (Nat.le_refl _)]
  simp [unwrap]

/-- Wrapping a text that is read negates what it is read as, or takes a negation off it. -/
theorem negatable_wrapped (hinner : ∀ {cs c}, inner cs = .ok c → ∀ e, c ≠ .negated e)
    (hbalanced : Balanced ks 0 cs 0) (h : negatable inner cs = .ok c) :
    negatable inner (wrapped cs) = .ok c.toggled := by
  rw [negatable_eq_ok_iff] at h ⊢
  rw [trim_wrapped, unwrap_wrapped hbalanced]
  obtain ⟨hne, e, he, rfl⟩ := h
  refine ⟨hne, e, he, ?_⟩
  cases (unwrap (trim cs)).1 with
  | true => rfl
  | false => exact toggled_of_ne_negated (hinner he)

end

/-! ## Composed texts -/

theorem parse_eq_ok_iff {s : String} : parse s = .ok c ↔ composite s.toList = .ok c := by
  unfold parse
  split
  · next hblank =>
    refine ⟨fun h => (by cases h), fun h => ?_⟩
    have hall : ∀ c ∈ s.toList, isBlank c = true := List.all_eq_true.1 hblank
    rw [composite_eq] at h
    exact absurd (by rw [trim, trimStart_eq_nil_iff.2 hall]; rfl) (trim_ne_nil_of_negatable h)
  · exact Iff.rfl

/-- The connective of a condition, or of what it negates. -/
def connective? : Condition → Option Connective
  | .joined k _ => some k
  | .negated (.joined k _) => some k
  | _ => none

/-- A text that is not read as joined has no sign outside strings and negations. -/
theorem negatable_of_connective? {part whole : List Char → Except ParseError Condition}
    (h : negatable (joinedBy k part whole) cs = .ok c) (hc : c.connective? ≠ some k) :
    negatable whole cs = .ok c := by
  rw [← h]
  refine (negatable_congr (joinedBy_of_not_cut fun hcut => hc ?_)).symm
  obtain ⟨-, e, he, rfl⟩ := negatable_eq_ok_iff.1 h
  obtain ⟨parts, rfl, -⟩ := (joinedBy_eq_ok_iff hcut).1 he
  split <;> rfl

theorem clause_of_composite (h : composite cs = .ok c) (hc : c.connective? ≠ some .and) :
    clause cs = .ok c := by
  rw [composite_eq_conjunction] at h
  exact negatable_of_connective? h hc

theorem atom_of_clause (h : clause cs = .ok c) (hc : c.connective? ≠ some .or) :
    atom cs = .ok c :=
  negatable_of_connective? h hc

theorem parse_and {texts : List String} (hlen : 2 ≤ texts.length)
    (h : List.Forall₂ (fun t c => parse t = .ok c ∧ c.connective? ≠ some .and) texts conds) :
    parse (" && ".intercalate texts) = .ok (.joined .and conds) := by
  have hall : List.Forall₂ (fun t c => clause t = .ok c) (texts.map String.toList) conds := by
    rw [List.forall₂_map_left_iff]
    exact h.imp fun t c htc => clause_of_composite (parse_eq_ok_iff.1 htc.1) htc.2
  rw [parse_eq_ok_iff, String.toList_intercalate, composite_eq_conjunction]
  exact negatable_join (List.mem_singleton_self _) (by simpa using hlen) balanced_of_clause hall

theorem parse_or {texts : List String} (hlen : 2 ≤ texts.length)
    (h : List.Forall₂ (fun t c => parse t = .ok c ∧ c.connective? = none) texts conds) :
    parse (" || ".intercalate texts) = .ok (.joined .or conds) := by
  have hall : List.Forall₂ (fun t c => atom t = .ok c) (texts.map String.toList) conds := by
    rw [List.forall₂_map_left_iff]
    refine h.imp fun t c htc => ?_
    exact atom_of_clause (clause_of_composite (parse_eq_ok_iff.1 htc.1) (by simp [htc.2]))
      (by simp [htc.2])
  -- The joined text has no sign of a conjunction either, so it is read as a disjunction.
  have hbalanced : Balanced [.and] 0 (Connective.or.sign.intercalate (texts.map String.toList)) 0 :=
    .intercalate (by decide) fun t ht =>
      ((exists_of_forall₂ hall).1 t ht).elim fun _ htc => balanced_of_atom htc
  rw [parse_eq_ok_iff, String.toList_intercalate]
  show composite (Connective.or.sign.intercalate _) = _
  rw [composite_eq_clause (hbalanced.not_cut (by decide))]
  exact negatable_join (List.mem_singleton_self _) (by simpa using hlen) balanced_of_atom hall

/-- The text of the negation of a text. -/
def negation (s : String) : String := "!(" ++ s ++ ")"

theorem parse_negation {s : String} (h : parse s = .ok c) :
    parse (negation s) = .ok c.toggled := by
  rw [parse_eq_ok_iff] at h ⊢
  have hchars : (negation s).toList = wrapped s.toList := by simp [negation, wrapped]
  have hbalanced := balanced_of_composite h
  rw [composite_eq_conjunction] at h
  rw [hchars, composite_eq_conjunction]
  exact negatable_wrapped (fun h => isConjunction_ne_negated (isConjunction_of_conjunction h))
    hbalanced h

theorem toggled_toggled (h : IsFlat c) : c.toggled.toggled = c := by
  cases h with
  | plain h => rw [toggled_of_ne_negated (isConjunction_ne_negated h), toggled]
  | negated h => rw [toggled, toggled_of_ne_negated (isConjunction_ne_negated h)]

/-- Texts compose to texts of composed conditions. Joined with ` && `, texts that are read as other
conditions than conjunctions are read as the conjunction of these; joined with ` || `, texts of
predicates are read as their disjunction, and each of them may be negated. A text in any number of
negations is read as its condition if the number is even, and as the negation if it is odd. -/
theorem parse_composed :
    (∀ (texts : List String) (conds : List Condition), 2 ≤ texts.length →
      List.Forall₂ (fun t c => parse t = .ok c ∧ c.connective? ≠ some .and) texts conds →
      parse (" && ".intercalate texts) = .ok (.joined .and conds)) ∧
    (∀ (texts : List String) (conds : List Condition), 2 ≤ texts.length →
      List.Forall₂ (fun t c => parse t = .ok c ∧ c.connective? = none) texts conds →
      parse (" || ".intercalate texts) = .ok (.joined .or conds)) ∧
    ∀ (text : String) (c : Condition) (n : Nat), parse text = .ok c →
      parse (negation^[n] text) = .ok (toggled^[n] c) ∧
        toggled^[n] c = if n % 2 = 0 then c else c.toggled := by
  refine ⟨fun _ _ hlen h => parse_and hlen h, fun _ _ hlen h => parse_or hlen h,
    fun text c n h => ?_⟩
  have hflat : c.toggled.toggled = c := toggled_toggled (isFlat_of_composite (parse_eq_ok_iff.1 h))
  induction n with
  | zero => exact ⟨h, rfl⟩
  | succ n ih =>
    obtain ⟨hparse, hparity⟩ := ih
    rw [Function.iterate_succ_apply', Function.iterate_succ_apply']
    refine ⟨parse_negation hparse, ?_⟩
    rw [hparity]
    split <;> split <;> first | rfl | exact hflat | omega

/-- A disjunction and a negated predicate, with signs and parentheses in their strings and blanks
around them. -/
theorem parse_composed_marks :
    let either := " isEmpty('A && B') || notEmpty( \"CITY\" )"
    let unlike := "!( equals('MARK', ') || !(') ) "
    let c : Condition := .joined .or [.emptiness .isEmpty "A && B", .emptiness .notEmpty "CITY"]
    let d : Condition := .negated (.comparison .equals "MARK" (.text ") || !("))
    (parse either = .ok c ∧ parse unlike = .ok d) ∧
      parse (" && ".intercalate [either, unlike]) = .ok (.joined .and [c, d]) ∧
      parse (" || ".intercalate [unlike, unlike]) = .ok (.joined .or [d, d]) ∧
      parse (negation^[3] unlike) = .ok (toggled^[3] d) ∧ toggled^[3] d = d.toggled := by
  intro either unlike c d
  have hc : parse either = .ok c := by decide +kernel
  have hd : parse unlike = .ok d := by decide +kernel
  obtain ⟨hand, hor, hnegation⟩ := parse_composed
  refine ⟨⟨hc, hd⟩, hand _ _ (by decide) ?_, hor _ _ (by decide) ?_, hnegation _ d 3 hd⟩
  · exact .cons ⟨hc, by decide⟩ (.cons ⟨hd, by decide⟩ .nil)
  · exact .cons ⟨hd, by decide⟩ (.cons ⟨hd, by decide⟩ .nil)

end Condition

end Questionnaire
