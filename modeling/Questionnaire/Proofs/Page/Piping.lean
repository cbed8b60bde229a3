import Questionnaire.Page.Resolved
import Questionnaire.Proofs.Page.Tokens
import Questionnaire.Sample.BrandTracker

/-!
# Piped texts

A text may hold tokens for answers and tokens for embedded data. What an author expects is that all
of them are replaced at once (`Wording.resolveAtOnce`): the text is cut into both kinds of tokens
and the characters between them, and each token is replaced by its value, while all else stays.
Tokens of the two kinds never overlap, so replacing the tokens for answers alone is that with no
embedded data (`Wording.resolveAnswers_eq`).

The tokens for embedded data are replaced in a second pass, which reads the answers that the first
one put in. So an answer may be taken for a token (`Wording.answer_taken_for_token`). Where no token
for embedded data begins in an answer, nor in the text in front of it without ending there
(`Wording.PutInSafely`), the two passes do what is expected, whatever the embedded data are
(`Wording.resolvePiping_eq_resolveAtOnce`).
-/

namespace Questionnaire.Wording

/-! ## Replacing at once -/

/-- What a token names. -/
inductive PipingToken
  | answer (token : String × String)
  | datum (key : String)

/-- The token at the beginning of a text, of either kind. -/
def pipingToken? (cs : List Char) : Option (List Char × PipingToken) :=
  match pipeToken? cs with
  | some (w, token) => some (w, .answer token)
  | none => (embeddedToken? cs).map fun found => (found.1, .datum found.2)

/-- The text of a key of the embedded data, if there are any and they have it. -/
def datum? (embedded : Option (Register Value)) (key : String) : Option String :=
  (embedded.bind fun data => data.get? (.text key)).map Value.display

/-- The text that a token stands for. -/
def pipingValue (questions : List Question) (responses : Register Value)
    (embedded : Option (Register Value)) : PipingToken → Except Fault (Option String)
  | .answer token => pipeValue questions responses token
  | .datum key => .ok (datum? embedded key)

/-- The text with all its tokens replaced at once: each token by its value if it has one, and else
it stays as written. -/
def resolveAtOnce (text : String) (questions : List Question) (responses : Register Value)
    (embedded : Option (Register Value)) : Except Fault String :=
  if text == "" then .ok ""
  else do
    demandKeys (questions.map Question.variableName)
    resolvePieces (pipingValue questions responses embedded) (pieces pipingToken? text.toList)

variable {cs w r s a b : List Char} {c d : Char}

/-! ## Where tokens begin -/

theorem embeddedToken?_of_ne (h : c ≠ '{') : embeddedToken? (c :: r) = none :=
  bracedToken?_of_ne rfl h

theorem embeddedToken?_of_single (h : d ≠ '{') : embeddedToken? ('{' :: d :: r) = none := by
  refine Option.eq_none_iff_forall_ne_some.2 fun found hfound => ?_
  obtain ⟨name, u, hw, hcs, -⟩ := bracedToken?_eq_some_iff.1 hfound
  rw [hw] at hcs
  exact h (List.cons.inj (List.cons.inj hcs).2).1

theorem pipeToken?_of_ne (h : c ≠ '$') : pipeToken? (c :: r) = none := by
  refine Option.eq_none_iff_forall_ne_some.2 fun found hfound => ?_
  obtain ⟨name, field, u, hw, hcs, -⟩ := pipeToken?_eq_some_iff.1 hfound
  rw [hw] at hcs
  exact h (List.cons.inj hcs).1

theorem pipeToken?_of_second_ne (h : d ≠ '{') : pipeToken? (c :: d :: r) = none := by
  refine Option.eq_none_iff_forall_ne_some.2 fun found hfound => ?_
  obtain ⟨name, field, u, hw, hcs, -⟩ := pipeToken?_eq_some_iff.1 hfound
  rw [hw] at hcs
  exact h (List.cons.inj (List.cons.inj hcs).2).1

/-- The braces of a token for embedded data stand at its ends. -/
theorem exists_of_embeddedToken? {key : String} (h : embeddedToken? cs = some (w, key)) :
    ∃ u, w = '{' :: '{' :: 'e' :: (u ++ ['}']) ∧ '{' ∉ u ∧
      ∀ r, embeddedToken? (w ++ r) = some (w, key) := by
  obtain ⟨name, r, hw, -, hkey, hne, hname⟩ := bracedToken?_eq_some_iff.1 h
  refine ⟨"mbeddedData.".toList ++ name ++ ['}'], ?_, ?_, fun r =>
    bracedToken?_eq_some_iff.2 ⟨name, r, hw, rfl, hkey, hne, hname⟩⟩
  · rw [hw]
    simp
  · intro hmem
    simp only [List.mem_append, List.mem_singleton] at hmem
    rcases hmem with (hmem | hmem) | hmem
    · exact absurd hmem (by decide)
    · exact absurd (hname _ hmem) (by decide)
    · exact absurd hmem (by decide)

/-- A token for an answer has one opening brace, its second character. -/
theorem exists_of_pipeToken? {token : String × String} (h : pipeToken? cs = some (w, token)) :
    ∃ u, w = '$' :: '{' :: 'p' :: u ∧ '{' ∉ u := by
  obtain ⟨name, field, r, hw, -, -, -, -, hname, hfield⟩ := pipeToken?_eq_some_iff.1 h
  refine ⟨"ipe:question:".toList ++ (name ++ ':' :: (field ++ ['}'])), ?_, ?_⟩
  · rw [hw]
    rfl
  · intro hmem
    simp only [List.mem_append, List.mem_cons] at hmem
    rcases hmem with hmem | hmem | hmem | hmem | hmem | hmem
    · exact absurd hmem (by decide)
    · exact absurd (hname _ hmem).1 (by decide)
    · exact absurd hmem (by decide)
    · exact absurd (hfield _ hmem) (by decide)
    · exact absurd hmem (by decide)
    · exact absurd hmem List.not_mem_nil

/-- No token for an answer begins in a token for embedded data. -/
theorem pipeToken?_in_datum {key : String} (h : embeddedToken? cs = some (w, key))
    (hs : s <:+ w) (hne : s ≠ []) (r : List Char) : pipeToken? (s ++ r) = none := by
  obtain ⟨u, rfl, hu, -⟩ := exists_of_embeddedToken? h
  have hinner : ∀ s, s <:+ 'e' :: (u ++ ['}']) → s ≠ [] → pipeToken? (s ++ r) = none := by
    intro s hs hne
    rw [← List.cons_append, List.suffix_concat_iff] at hs
    rcases hs with rfl | ⟨t, rfl, ht⟩
    · exact absurd rfl hne
    have hbrace : '{' ∉ t := fun hmem => by
      rcases List.mem_cons.1 (ht.subset hmem) with he | hmem
      · exact absurd he (by decide)
      · exact hu hmem
    match t with
    | [] => exact pipeToken?_of_ne (by decide)
    | [c] => exact pipeToken?_of_second_ne (by decide)
    | c :: d :: t => exact pipeToken?_of_second_ne fun hd => hbrace (by simp [hd])
  rcases List.suffix_cons_iff.1 hs with rfl | hs
  · exact pipeToken?_of_ne (by decide)
  rcases List.suffix_cons_iff.1 hs with rfl | hs
  · exact pipeToken?_of_ne (by decide)
  · exact hinner s hs hne

theorem finds_pipingToken? : Finds pipingToken? := by
  intro cs w token h
  rw [pipingToken?] at h
  split at h
  · next hfound =>
    cases h
    exact finds_pipeToken? hfound
  · obtain ⟨found, hfound, hw⟩ := Option.map_eq_some_iff.1 h
    cases hw
    exact finds_embeddedToken? hfound

theorem pipingToken?_eq_none (h : pipingToken? cs = none) :
    pipeToken? cs = none ∧ embeddedToken? cs = none := by
  rw [pipingToken?] at h
  split at h
  · cases h
  · next hnone => exact ⟨hnone, Option.map_eq_none_iff.1 h⟩

theorem pipeToken?_of_answer {token : String × String}
    (h : pipingToken? cs = some (w, .answer token)) : pipeToken? cs = some (w, token) := by
  rw [pipingToken?] at h
  split at h
  · next hfound =>
    cases h
    exact hfound
  · obtain ⟨found, -, hw⟩ := Option.map_eq_some_iff.1 h
    cases hw

theorem embeddedToken?_of_datum {key : String} (h : pipingToken? cs = some (w, .datum key)) :
    embeddedToken? cs = some (w, key) := by
  rw [pipingToken?] at h
  split at h
  · cases h
  · obtain ⟨found, hfound, hw⟩ := Option.map_eq_some_iff.1 h
    cases hw
    exact hfound

/-! ## The pass for answers -/

/-- A piece as the pass for answers takes it: a token for embedded data is so many characters. -/
def answerPieces : Piece PipingToken → List (Piece (String × String))
  | .char c => [.char c]
  | .token w (.answer token) => [.token w token]
  | .token w (.datum _) => w.map .char

theorem cut_answers {ps : List (Piece PipingToken)} (h : Cut pipingToken? cs ps) :
    Cut pipeToken? cs (ps.flatMap answerPieces) := by
  induction h with
  | nil => exact .nil
  | char hnone _ ih => exact .char (pipingToken?_eq_none hnone).1 ih
  | @token w r token ps hfound _ ih =>
    cases token with
    | answer token => exact .token (pipeToken?_of_answer hfound) ih
    | datum key =>
      exact ih.chars fun s hs hne => pipeToken?_in_datum (embeddedToken?_of_datum hfound) hs hne r

section Resolving

variable {α : Type} {f g : α → Except Fault (Option String)} {ps qs : List (Piece α)}

@[simp] theorem substitute_nil (value? : α → Option String) : substitute value? [] = [] := rfl

@[simp] theorem substitute_char (value? : α → Option String) (c : Char) (ps : List (Piece α)) :
    substitute value? (.char c :: ps) = c :: substitute value? ps := rfl

@[simp] theorem substitute_token (value? : α → Option String) (w : List Char) (name : α)
    (ps : List (Piece α)) : substitute value? (.token w name :: ps) =
      ((value? name).map String.toList).getD w ++ substitute value? ps := by
  rw [substitute, List.flatMap_cons]
  dsimp only
  cases value? name <;> rfl

/-- The characters of a text of pieces with each token replaced by its value, if it has one. -/
def resolved (f : α → Except Fault (Option String)) (ps : List (Piece α)) :
    Except Fault (List Char) :=
  (ps.mapM (resolvePiece f)).map List.flatten

theorem resolvePieces_eq (f : α → Except Fault (Option String)) (ps : List (Piece α)) :
    resolvePieces f ps = (resolved f ps).map String.ofList := by
  rw [resolvePieces, resolved]
  cases ps.mapM (resolvePiece f) <;> rfl

@[simp] theorem resolved_nil (f : α → Except Fault (Option String)) : resolved f [] = .ok [] := by
  simp [resolved, pure, Except.pure, Except.map]

theorem resolved_cons (f : α → Except Fault (Option String)) (p : Piece α) (ps : List (Piece α)) :
    resolved f (p :: ps) =
      (resolvePiece f p).bind fun x => (resolved f ps).map fun r => x ++ r := by
  rw [resolved, resolved, List.mapM_cons]
  cases resolvePiece f p with
  | error e => rfl
  | ok x => cases ps.mapM (resolvePiece f) <;> rfl

theorem resolved_append (f : α → Except Fault (Option String)) (qs : List (Piece α)) :
    ∀ ps : List (Piece α), resolved f (ps ++ qs) =
      (resolved f ps).bind fun x => (resolved f qs).map fun r => x ++ r
  | [] => by
    rw [List.nil_append, resolved_nil]
    cases resolved f qs <;> rfl
  | p :: ps => by
    rw [List.cons_append, resolved_cons, resolved_append f qs ps, resolved_cons]
    cases resolvePiece f p with
    | error e => rfl
    | ok x =>
      cases resolved f ps with
      | error e => rfl
      | ok y =>
        cases resolved f qs with
        | error e => rfl
        | ok z => exact congrArg Except.ok (List.append_assoc x y z).symm

theorem resolved_chars (f : α → Except Fault (Option String)) :
    ∀ w : List Char, resolved f (w.map .char) = .ok w
  | [] => resolved_nil f
  | c :: w => by
    rw [List.map_cons, resolved_cons, resolved_chars f w]
    rfl

/-- Where all tokens have texts to be replaced by, or none, they are replaced. -/
theorem resolved_eq_substitute {value? : α → Option String} :
    ∀ {ps : List (Piece α)}, (∀ w name, .token w name ∈ ps → f name = .ok (value? name)) →
      resolved f ps = .ok (substitute value? ps)
  | [], _ => resolved_nil f
  | p :: ps, h => by
    rw [resolved_cons, resolved_eq_substitute fun w name hp => h w name (.tail _ hp)]
    cases p with
    | char c => rfl
    | token w name =>
      rw [resolvePiece, h w name (.head _), substitute_token]
      cases value? name <;> rfl

/-- If no token fails, each is replaced or stays. -/
theorem ok_of_resolved : ∀ {ps : List (Piece α)} {r : List Char}, resolved f ps = .ok r →
    ∀ w name, .token w name ∈ ps → f name = .ok (f name).toOption.join
  | [], _, _, _, _, hp => nomatch hp
  | p :: ps, r, h, w, name, hp => by
    rw [resolved_cons] at h
    cases hfirst : resolvePiece f p with
    | error e =>
      rw [hfirst] at h
      cases h
    | ok x =>
      cases hrest : resolved f ps with
      | error e =>
        rw [hfirst, hrest] at h
        cases h
      | ok y =>
        rcases List.mem_cons.1 hp with rfl | hp
        · rw [resolvePiece] at hfirst
          cases hname : f name with
          | error e =>
            rw [hname] at hfirst
            cases hfirst
          | ok v => cases v <;> rfl
        · exact ok_of_resolved hrest w name hp

/-- The first token that fails decides, so ways of replacing tokens that fail on the same tokens
with the same faults fail on the same texts with the same faults. -/
theorem resolved_eq_error
    (herror : ∀ p e, resolvePiece f p = .error e → resolvePiece g p = .error e)
    (hok : ∀ p x, resolvePiece f p = .ok x → ∃ y, resolvePiece g p = .ok y) {e : Fault} :
    ∀ {ps : List (Piece α)}, resolved f ps = .error e → resolved g ps = .error e
  | [], h => by
    rw [resolved_nil] at h
    cases h
  | p :: ps, h => by
    rw [resolved_cons] at h ⊢
    cases hp : resolvePiece f p with
    | error e' =>
      rw [hp] at h
      rw [herror p e' hp]
      exact h
    | ok x =>
      obtain ⟨y, hy⟩ := hok p x hp
      cases hrest : resolved f ps with
      | ok r =>
        rw [hp, hrest] at h
        cases h
      | error e' =>
        rw [hp, hrest] at h
        rw [hy, resolved_eq_error herror hok hrest]
        exact h

end Resolving

/-- The pass for answers replaces the tokens for answers at once and leaves the others. -/
theorem resolved_answers (questions : List Question) (responses : Register Value) :
    ∀ ps : List (Piece PipingToken),
      resolved (pipeValue questions responses) (ps.flatMap answerPieces) =
        resolved (pipingValue questions responses none) ps
  | [] => by rw [List.flatMap_nil, resolved_nil, resolved_nil]
  | p :: ps => by
    have hfirst : resolved (pipeValue questions responses) (answerPieces p) =
        resolvePiece (pipingValue questions responses none) p := by
      match p with
      | .char c => exact resolved_chars _ [c]
      | .token w (.datum key) => exact resolved_chars _ w
      | .token w (.answer token) =>
        rw [answerPieces, resolved_cons, resolved_nil]
        show _ = resolvePiece (pipeValue questions responses) (.token w token)
        cases resolvePiece (pipeValue questions responses) (.token w token) with
        | error e => rfl
        | ok x => exact congrArg Except.ok (List.append_nil x)
    rw [List.flatMap_cons, resolved_append, resolved_answers questions responses ps, hfirst,
      resolved_cons]

theorem resolveAnswers_eq (text : String) (questions : List Question) (responses : Register Value) :
    resolveAnswers text questions responses = resolveAtOnce text questions responses none := by
  have hpieces : pieces pipeToken? text.toList =
      (pieces pipingToken? text.toList).flatMap answerPieces :=
    (cut_answers (cut_pieces finds_pipingToken? text.toList)).pieces_eq finds_pipeToken?
  simp only [resolveAnswers, resolveAtOnce, hpieces, resolvePieces_eq, resolved_answers]

/-! ## Texts that no token begins in, or none is left open in -/

/-- A text in which no token for embedded data begins, whatever stands behind it. -/
def Inert (cs : List Char) : Prop :=
  ∀ s, s <:+ cs → s ≠ [] → ∀ r, embeddedToken? (s ++ r) = none

/-- A text that leaves no token for embedded data open: what stands behind it makes no difference to
the tokens that begin in it. -/
def Finished (cs : List Char) : Prop :=
  ∀ s, s <:+ cs → s ≠ [] → ∀ r, embeddedToken? (s ++ r) = embeddedToken? s

namespace Inert

theorem nil : Inert [] := fun _ hs hne => absurd (List.suffix_nil.1 hs) hne

theorem cons (hc : c ≠ '{') (h : Inert cs) : Inert (c :: cs) := by
  intro s hs hne r
  rcases List.suffix_cons_iff.1 hs with rfl | hs
  · exact embeddedToken?_of_ne hc
  · exact h s hs hne r

/-- An opening brace by itself begins no token. -/
theorem brace (hd : d ≠ '{') (h : Inert (d :: cs)) : Inert ('{' :: d :: cs) := by
  intro s hs hne r
  rcases List.suffix_cons_iff.1 hs with rfl | hs
  · exact embeddedToken?_of_single hd
  · exact h s hs hne r

theorem of_not_mem : ∀ {cs : List Char}, '{' ∉ cs → Inert cs
  | [], _ => nil
  | _ :: _, h => cons (fun hc => h (hc ▸ .head _)) (of_not_mem fun hmem => h (.tail _ hmem))

theorem of_pipeToken? {token : String × String} (h : pipeToken? cs = some (w, token)) :
    Inert w := by
  obtain ⟨u, rfl, hu⟩ := exists_of_pipeToken? h
  exact cons (by decide) (brace (by decide) (cons (by decide) (of_not_mem hu)))

theorem finished (h : Inert cs) : Finished cs := by
  intro s hs hne r
  have hnone := h s hs hne []
  rw [List.append_nil] at hnone
  rw [h s hs hne r, hnone]

end Inert

namespace Finished

theorem suffix (h : Finished cs) (hs : s <:+ cs) : Finished s := fun t ht => h t (ht.trans hs)

theorem append (ha : Finished a) (hb : Finished b) : Finished (a ++ b) := by
  induction a with
  | nil => exact hb
  | cons c a ih =>
    intro s hs hne r
    rcases List.suffix_cons_iff.1 hs with rfl | hs
    · have h := ha (c :: a) (List.suffix_refl _) (List.cons_ne_nil _ _)
      show embeddedToken? ((c :: a) ++ b ++ r) = embeddedToken? ((c :: a) ++ b)
      rw [List.append_assoc, h, h]
    · exact ih (ha.suffix (List.suffix_cons c a)) s hs hne r

/-- A token is not left open. -/
theorem of_embeddedToken? {key : String} (h : embeddedToken? cs = some (w, key)) : Finished w := by
  obtain ⟨u, rfl, hu, htoken⟩ := exists_of_embeddedToken? h
  have hinner : Inert ('{' :: 'e' :: (u ++ ['}'])) := by
    refine .brace (by decide) (.cons (by decide) (.of_not_mem ?_))
    simpa using hu
  intro s hs hne r
  rcases List.suffix_cons_iff.1 hs with rfl | hs
  · have hself := htoken []
    rw [List.append_nil] at hself
    rw [htoken r, hself]
  · exact hinner.finished s hs hne r

theorem flatMap {α : Type} {f : α → List Char} :
    ∀ {l : List α}, (∀ x ∈ l, Finished (f x)) → Finished (l.flatMap f)
  | [], _ => Inert.nil.finished
  | _ :: _, h => (h _ (.head _)).append (flatMap fun y hy => h y (.tail _ hy))

end Finished

/-! ## The pass for embedded data -/

/-- What tokens stand for, if answers and embedded data are texts. -/
def textOf? (answer? : String × String → Option String) (data? : String → Option String) :
    PipingToken → Option String
  | .answer token => answer? token
  | .datum key => data? key

/-- Wherever an answer is put into a text of pieces, no token for embedded data is left open in
front of it, and none begins in it. -/
def PutInto (answer? : String × String → Option String) (ps : List (Piece PipingToken)) : Prop :=
  ∀ before w token after v, ps = before ++ .token w (.answer token) :: after →
    answer? token = some v → Finished (before.flatMap Piece.written) ∧ Inert v.toList

section EmbeddedPass

variable {answer? : String × String → Option String} {data? : String → Option String}
  {ps : List (Piece PipingToken)} {p : Piece PipingToken}

theorem PutInto.tail (h : PutInto answer? (p :: ps)) : PutInto answer? ps := by
  intro before w token after v hps hv
  obtain ⟨hfront, hinert⟩ := h (p :: before) w token after v (by rw [hps]; rfl) hv
  rw [List.flatMap_cons] at hfront
  exact ⟨hfront.suffix (List.suffix_append _ _), hinert⟩

/-- A piece as the pass for embedded data takes it, after the pass for answers: an answer that was
put in is so many characters. -/
def datumPieces (answer? : String × String → Option String) :
    Piece PipingToken → List (Piece String)
  | .char c => [.char c]
  | .token w (.answer token) => (((answer? token).map String.toList).getD w).map .char
  | .token w (.datum key) => [.token w key]

/-- The text after the pass for answers goes on as the author wrote it up to the first answer that
is put in, if there is any. -/
theorem substitute_cases (answer? : String × String → Option String) :
    ∀ ps : List (Piece PipingToken),
      substitute (textOf? answer? fun _ => none) ps = ps.flatMap Piece.written ∨
      ∃ before w token after v, ps = before ++ .token w (.answer token) :: after ∧
        answer? token = some v ∧
        ∃ r, substitute (textOf? answer? fun _ => none) ps =
          before.flatMap Piece.written ++ r
  | [] => .inl rfl
  | p :: ps => by
    have hstep : (∃ w token v, p = .token w (.answer token) ∧ answer? token = some v) ∨
        substitute (textOf? answer? fun _ => none) (p :: ps) =
          p.written ++ substitute (textOf? answer? fun _ => none) ps := by
      match p with
      | .char c => exact .inr rfl
      | .token w (.datum key) => exact .inr rfl
      | .token w (.answer token) =>
        cases hv : answer? token with
        | some v => exact .inl ⟨w, token, v, rfl, hv⟩
        | none =>
          refine .inr ?_
          rw [substitute_token, textOf?, hv]
          rfl
    rcases hstep with ⟨w, token, v, rfl, hv⟩ | hstep
    · exact .inr ⟨[], w, token, ps, v, rfl, hv, _, rfl⟩
    · rw [hstep, List.flatMap_cons]
      refine (substitute_cases answer? ps).imp (fun h => by rw [h]) ?_
      rintro ⟨before, w, token, after, v, rfl, hv, r, hr⟩
      refine ⟨p :: before, w, token, after, v, rfl, hv, r, ?_⟩
      rw [hr, List.flatMap_cons, List.append_assoc]

/-- Where no token for embedded data begins in the text, none begins there after answers were put
into it. -/
theorem embeddedToken?_put_in (h : PutInto answer? (.char c :: ps))
    (hnone : embeddedToken? (c :: ps.flatMap Piece.written) = none) :
    embeddedToken? (c :: substitute (textOf? answer? fun _ => none) ps) = none := by
  rcases substitute_cases answer? ps with hsame | ⟨before, w, token, after, v, hps, hv, r, hr⟩
  · rwa [hsame]
  -- Up to the answer the text is the same, and what is behind makes no difference.
  · have hfront := (h (.char c :: before) w token after v (by rw [hps]; rfl) hv).1
    have hopen := hfront _ (List.suffix_refl _) (List.cons_ne_nil _ _)
    rw [hr, ← List.cons_append]
    rw [hps, List.flatMap_append, ← List.cons_append] at hnone
    exact (hopen r).trans ((hopen _).symm.trans hnone)

/-- The tokens for embedded data in the text after the pass for answers are those that the author
wrote. -/
theorem cut_data (hcut : Cut pipingToken? cs ps) (h : PutInto answer? ps) :
    Cut embeddedToken? (substitute (textOf? answer? fun _ => none) ps)
      (ps.flatMap (datumPieces answer?)) := by
  induction hcut with
  | nil => exact .nil
  | @char c r ps hnone hr ih =>
    rw [← hr.flatMap_written] at hnone
    exact .char (embeddedToken?_put_in h (pipingToken?_eq_none hnone).2) (ih h.tail)
  | @token w r token ps hfound hr ih =>
    rw [substitute_token]
    cases token with
    | datum key =>
      obtain ⟨_, -, -, htoken⟩ := exists_of_embeddedToken? (embeddedToken?_of_datum hfound)
      exact .token (htoken _) (ih h.tail)
    | answer token =>
      have hinert : Inert (((answer? token).map String.toList).getD w) := by
        cases hv : answer? token with
        | none => exact .of_pipeToken? (pipeToken?_of_answer hfound)
        | some v => exact (h [] w token ps v rfl hv).2
      exact (ih h.tail).chars fun s hs hne => hinert s hs hne _

theorem substitute_append {α : Type} (value? : α → Option String) (ps qs : List (Piece α)) :
    substitute value? (ps ++ qs) = substitute value? ps ++ substitute value? qs :=
  List.flatMap_append

theorem substitute_chars {α : Type} (value? : α → Option String) (w : List Char) :
    substitute value? (w.map .char) = w := by
  induction w with
  | nil => rfl
  | cons c w ih => rw [List.map_cons, substitute_char, ih]

theorem substitute_data (answer? : String × String → Option String)
    (data? : String → Option String) : ∀ ps : List (Piece PipingToken),
      substitute data? (ps.flatMap (datumPieces answer?)) = substitute (textOf? answer? data?) ps
  | [] => rfl
  | p :: ps => by
    rw [List.flatMap_cons, substitute_append, substitute_data answer? data? ps]
    match p with
    | .char c => rfl
    | .token w (.answer token) =>
      rw [datumPieces, substitute_chars, substitute_token]
      rfl
    | .token w (.datum key) =>
      rw [datumPieces, substitute_token, substitute_token, substitute_nil, List.append_nil]
      rfl

end EmbeddedPass

/-! ## Both passes -/

/-- Wherever an answer is put into a text, no token for embedded data is left open in front of it,
and none begins in it. -/
def PutInSafely (text : String) (questions : List Question) (responses : Register Value) : Prop :=
  ∀ before w token after v,
    pieces pipingToken? text.toList = before ++ .token w (.answer token) :: after →
    pipeValue questions responses token = .ok (some v) →
      Finished (before.flatMap Piece.written) ∧ Inert v.toList

/-- Whether a piece is harmless to what is put in around it: an opening brace is part of a token,
and an answer has none. -/
def harmless (questions : List Question) (responses : Register Value) : Piece PipingToken → Bool
  | .char c => c != '{'
  | .token _ (.datum _) => true
  | .token _ (.answer token) =>
    match pipeValue questions responses token with
    | .ok (some v) => !v.toList.contains '{'
    | _ => true

section BothPasses

variable {text : String} {questions : List Question} {responses : Register Value}
  {embedded : Option (Register Value)} {data : Register Value}

theorem finished_of_harmless {ps : List (Piece PipingToken)} (hcut : Cut pipingToken? cs ps)
    (h : ∀ p ∈ ps, harmless questions responses p = true) : ∀ p ∈ ps, Finished p.written := by
  induction hcut with
  | nil => exact fun p hp => absurd hp List.not_mem_nil
  | @char c r ps _ _ ih =>
    refine List.forall_mem_cons.2 ⟨?_, ih (List.forall_mem_cons.1 h).2⟩
    exact (Inert.nil.cons (bne_iff_ne.1 (List.forall_mem_cons.1 h).1)).finished
  | @token w r token ps hfound _ ih =>
    refine List.forall_mem_cons.2 ⟨?_, ih (List.forall_mem_cons.1 h).2⟩
    cases token with
    | answer token => exact (Inert.of_pipeToken? (pipeToken?_of_answer hfound)).finished
    | datum key => exact .of_embeddedToken? (embeddedToken?_of_datum hfound)

/-- In a text that has opening braces in its tokens only, answers without opening braces are put in
safely. -/
theorem putInSafely_of_harmless
    (h : (pieces pipingToken? text.toList).all (harmless questions responses) = true) :
    PutInSafely text questions responses := by
  intro before w token after v hps hv
  rw [List.all_eq_true] at h
  have hfinished := finished_of_harmless (cut_pieces finds_pipingToken? text.toList) h
  rw [hps] at h hfinished
  refine ⟨.flatMap fun p hp => hfinished p (List.mem_append_left _ hp), .of_not_mem ?_⟩
  simpa [harmless, hv] using h (.token w (.answer token)) (by simp)

/-- Embedded data make no difference to whether a piece fails. -/
theorem resolvePiece_error (p : Piece PipingToken) (e : Fault)
    (h : resolvePiece (pipingValue questions responses none) p = .error e) :
    resolvePiece (pipingValue questions responses embedded) p = .error e := by
  match p, h with
  | .token _ (.answer _), h => exact h

theorem resolvePiece_ok (p : Piece PipingToken) (x : List Char)
    (h : resolvePiece (pipingValue questions responses none) p = .ok x) :
    ∃ y, resolvePiece (pipingValue questions responses embedded) p = .ok y := by
  match p with
  | .char c => exact ⟨[c], rfl⟩
  | .token w (.answer token) => exact ⟨x, h⟩
  | .token w (.datum key) =>
    rw [resolvePiece, pipingValue]
    cases datum? embedded key <;> exact ⟨_, rfl⟩

/-- The pass for embedded data over a text that answers were put into safely. -/
theorem resolved_data (h : PutInSafely text questions responses) {piped : List Char}
    (hpiped : resolved (pipingValue questions responses none) (pieces pipingToken? text.toList) =
      .ok piped) :
    resolved (pipingValue questions responses (some data)) (pieces pipingToken? text.toList) =
      .ok (substitute (datum? (some data)) (pieces embeddedToken? piped)) := by
  have hcut := cut_pieces finds_pipingToken? text.toList
  rw [PutInSafely] at h
  generalize pieces pipingToken? text.toList = ps at h hpiped hcut
  let answer? (token : String × String) : Option String :=
    (pipeValue questions responses token).toOption.join
  have hanswer (w : List Char) (token : String × String)
      (hp : .token w (.answer token) ∈ ps) :
      pipeValue questions responses token = .ok (answer? token) :=
    ok_of_resolved hpiped w (.answer token) hp
  have hfirst : piped = substitute (textOf? answer? fun _ => none) ps := by
    refine Except.ok.inj (hpiped.symm.trans (resolved_eq_substitute fun w name hp => ?_))
    cases name with
    | answer token => exact hanswer w token hp
    | datum key => rfl
  have hput : PutInto answer? ps := fun before w token after v hps hv => by
    refine h before w token after v hps ?_
    rw [hanswer w token (by rw [hps]; simp), hv]
  rw [hfirst, (cut_data hcut hput).pieces_eq finds_embeddedToken?, substitute_data]
  refine resolved_eq_substitute fun w name hp => ?_
  cases name with
  | answer token => exact hanswer w token hp
  | datum key => rfl

/-- Tokens are replaced at once: the result is the text that the author wrote with each token
replaced by its value, or left as written, and all else unchanged. With embedded data this holds if
answers are put in safely; without them it always does. -/
theorem resolvePiping_eq_resolveAtOnce
    (h : embedded.isSome = true → PutInSafely text questions responses) :
    resolvePiping text questions responses embedded =
      resolveAtOnce text questions responses embedded := by
  rw [resolvePiping, resolveAnswers_eq]
  cases embedded with
  | none => cases resolveAtOnce text questions responses none <;> rfl
  | some data =>
    rw [resolveAtOnce, resolveAtOnce]
    split
    · rfl
    · cases demandKeys (questions.map Question.variableName) with
      | error e => rfl
      | ok _ =>
        simp only [resolvePieces_eq]
        cases hpiped : resolved (pipingValue questions responses none)
            (pieces pipingToken? text.toList) with
        | error e =>
          rw [resolved_eq_error resolvePiece_error resolvePiece_ok hpiped]
          rfl
        | ok piped =>
          rw [resolved_data (h rfl) hpiped]
          show Except.ok (resolveEmbedded (String.ofList piped) data) = _
          rw [resolveEmbedded, String.toList_ofList]
          rfl

/-- A greeting with a datum and an answer that holds a closing brace. -/
theorem resolvePiping_eq_resolveAtOnce_greeting :
    let text := "\x7b\x7bembeddedData.GREETING\x7d\x7d $\x7bpipe:question:NAME:response\x7d!"
    let questions := [Sample.BrandTracker.plainQuestion "q1" "p" "NAME" .text "Your name?"]
    let responses := Register.ofTexts (Dict.ofList [("q1", .text "Ann\x7d\x7d")])
    let embedded := some (Register.ofTexts (Dict.ofList [("GREETING", .text "Hi")]))
    PutInSafely text questions responses ∧
      resolvePiping text questions responses embedded =
        resolveAtOnce text questions responses embedded ∧
      (resolvePiping text questions responses embedded).toOption = some "Hi Ann\x7d\x7d!" := by
  have hsafe : PutInSafely
      "\x7b\x7bembeddedData.GREETING\x7d\x7d $\x7bpipe:question:NAME:response\x7d!"
      [Sample.BrandTracker.plainQuestion "q1" "p" "NAME" .text "Your name?"]
      (Register.ofTexts (Dict.ofList [("q1", .text "Ann\x7d\x7d")])) :=
    putInSafely_of_harmless (by decide +kernel)
  exact ⟨hsafe, resolvePiping_eq_resolveAtOnce fun _ => hsafe, by decide +kernel⟩

/-- An answer that looks like a token for embedded data is replaced, and so is one that completes
such a token, although the author wrote no such token. -/
theorem answer_taken_for_token :
    let questions := [Sample.BrandTracker.plainQuestion "q1" "p" "NAME" .text "Your name?"]
    let answered (answer : String) := Register.ofTexts (Dict.ofList [("q1", .text answer)])
    let embedded := some (Register.ofTexts (Dict.ofList [("PANEL", .text "uk")]))
    let greeting := "Hi $\x7bpipe:question:NAME:response\x7d"
    let halfToken := "\x7b\x7bembeddedData.$\x7bpipe:question:NAME:response\x7d\x7d\x7d"
    let token := "\x7b\x7bembeddedData.PANEL\x7d\x7d"
    ((resolvePiping greeting questions (answered token) embedded).toOption = some "Hi uk" ∧
      (resolveAtOnce greeting questions (answered token) embedded).toOption =
        some ("Hi " ++ token)) ∧
    (resolvePiping halfToken questions (answered "PANEL") embedded).toOption = some "uk" ∧
      (resolveAtOnce halfToken questions (answered "PANEL") embedded).toOption = some token := by
  decide +kernel

end BothPasses

end Questionnaire.Wording
