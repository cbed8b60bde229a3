import Mathlib.Order.WithBot
import Questionnaire.Proofs.Interview.Seen
import Questionnaire.Proofs.Route.Firing
import Questionnaire.Sample.BrandTracker

/-!
# What decides on leaving a page

What may decide where leaving a page leads are the terminations and the jump rules of the questions
that the respondent could see there and answered, and the jump rules of the page
(`Interview.Candidate`). The one that decides is the first that fires, in an order that is written
down here once (`Candidate.key`): questions by index, the termination of a question before its
rules, rules by priority, the rules of the page at the end, and whatever is equal as it was authored
(`Interview.jumpOnLeaving_least`).

The work goes through lists that are sorted one inside the other. Put together they are one list of
candidates (`Interview.candidates`), in which the keys rise, and looking for a jump finds the first
result on it (`Interview.jumpOnLeaving_yields`).
-/

namespace Questionnaire

open Flow

namespace Interview

/-! ## Candidates -/

/-- What may decide where leaving a page leads: the termination of a question, a jump rule of a
question, or a jump rule of the page. Questions and rules come with their positions in the
survey. -/
inductive Candidate
  | termination (position : Nat) (q : Question) (c : Criterion)
  | rule (position : Nat) (q : Question) (rulePosition : Nat) (r : JumpRule)
  | pageRule (rulePosition : Nat) (r : JumpRule)

namespace Candidate

/-- What comes of a candidate. -/
def result (survey : Survey) (ctx : Context) : Candidate → Except Fault (Option JumpOutcome)
  | termination _ _ c => Jump.terminationResult ctx c
  | rule _ _ _ r | pageRule _ r => Jump.ruleResult survey ctx r

/-- The rank of the question; the page itself comes last. -/
def questionRank : Candidate → WithTop (Place ×ₗ Nat)
  | termination position q _ | rule position q _ _ => rankOf Question.index (q, position)
  | pageRule _ _ => ⊤

/-- The rank of the rule; the termination of a question comes first. -/
def ruleRank : Candidate → WithBot (Place ×ₗ Nat)
  | termination _ _ _ => ⊥
  | rule _ _ rulePosition r | pageRule rulePosition r => rankOf JumpRule.priority (r, rulePosition)

/-- Where a candidate stands among the others: the question decides first, then the rule. -/
def key (c : Candidate) : WithTop (Place ×ₗ Nat) ×ₗ WithBot (Place ×ₗ Nat) :=
  toLex (c.questionRank, c.ruleRank)

end Candidate

variable {iv : Interview} {s : Session} {page : Id}

/-- What comes of a candidate in a session, if there is no fault. -/
def firedOf (iv : Interview) (s : Session) (c : Candidate) : Option JumpOutcome :=
  Jump.fired (c.result iv.survey (s.context iv.survey))

/-- Whether a question is on the page and the respondent could see it there and answered it. -/
def isAnsweredOn (iv : Interview) (s : Session) (page : Id) (q : Question) : Bool :=
  q.pageId.equal page &&
    (s.responses.contains q.id && Context.isFavourable (iv.sightVerdict s page q))

/-- The candidates for leaving a page. -/
inductive IsCandidate (iv : Interview) (s : Session) (page : Id) : Candidate → Prop
  | termination {i : Nat} {q : Question} {c : Criterion} : iv.survey.questions[i]? = some q →
      iv.isAnsweredOn s page q = true → q.terminateIf = some c →
      iv.IsCandidate s page (.termination i q c)
  | rule {i j : Nat} {q : Question} {r : JumpRule} : iv.survey.questions[i]? = some q →
      iv.isAnsweredOn s page q = true → iv.survey.jumpRules[j]? = some r →
      r.source.equal q.id = true → iv.IsCandidate s page (.rule i q j r)
  | pageRule {j : Nat} {r : JumpRule} : iv.survey.pageJumpRules[j]? = some r →
      r.source.equal page = true → iv.IsCandidate s page (.pageRule j r)

/-- Where a page can be left: the ids of the questions are distinct texts, indexes and priorities
are numbers, and no condition raises that is asked for. -/
structure Leavable (iv : Interview) (s : Session) (page : Id) : Prop where
  questions : Named Question.id iv.survey.questions
  indexes : ∀ q ∈ iv.survey.questions, q.index.isSized = true
  priorities : ∀ r ∈ iv.survey.jumpRules ++ iv.survey.pageJumpRules, r.priority.isSized = true
  sights : ∀ q ∈ iv.survey.questions, q.pageId.equal page = true →
    s.responses.contains q.id = true → ∃ b, iv.sightVerdict s page q = .ok b
  results : ∀ c, iv.IsCandidate s page c → ∃ o, c.result iv.survey (s.context iv.survey) = .ok o

/-! ## The candidates in order -/

/-- The rules with a source, in order, with their positions. -/
def rulesFrom (rules : List JumpRule) (source : Id) : List (JumpRule × Nat) :=
  ranked JumpRule.priority (fun r => r.source.equal source) rules

/-- The candidates of a question at a position, in order. -/
def candidatesOf (iv : Interview) (x : Question × Nat) : List Candidate :=
  (x.1.terminateIf.map (.termination x.2 x.1)).toList ++
    (rulesFrom iv.survey.jumpRules x.1.id).map fun r => .rule x.2 x.1 r.2 r.1

/-- The questions on the page that the respondent could see and answered, in order, with their
positions. -/
def answeredOn (iv : Interview) (s : Session) (page : Id) : List (Question × Nat) :=
  ranked Question.index (iv.isAnsweredOn s page) iv.survey.questions

/-- All candidates, in order. -/
def candidates (iv : Interview) (s : Session) (page : Id) : List Candidate :=
  (iv.answeredOn s page).flatMap iv.candidatesOf ++
    (rulesFrom iv.survey.pageJumpRules page).map fun r => .pageRule r.2 r.1

theorem mem_rulesFrom {rules : List JumpRule} {source : Id} {x : JumpRule × Nat} :
    x ∈ rulesFrom rules source ↔ rules[x.2]? = some x.1 ∧ x.1.source.equal source = true :=
  mem_ranked

theorem mem_answeredOn {x : Question × Nat} : x ∈ iv.answeredOn s page ↔
    iv.survey.questions[x.2]? = some x.1 ∧ iv.isAnsweredOn s page x.1 = true :=
  mem_ranked

theorem mem_candidates {c : Candidate} : c ∈ iv.candidates s page ↔ iv.IsCandidate s page c := by
  simp only [candidates, candidatesOf, List.mem_append, List.mem_flatMap, List.mem_map,
    Option.mem_toList, Option.map_eq_some_iff, mem_answeredOn, mem_rulesFrom, Prod.exists]
  constructor
  · rintro (⟨q, i, ⟨hq, ha⟩, ⟨c, hc, rfl⟩ | ⟨r, j, ⟨hr, hs⟩, rfl⟩⟩ | ⟨r, j, ⟨hr, hs⟩, rfl⟩)
    · exact .termination hq ha hc
    · exact .rule hq ha hr hs
    · exact .pageRule hr hs
  · rintro (⟨hq, ha, hc⟩ | ⟨hq, ha, hr, hs⟩ | ⟨hr, hs⟩)
    · exact .inl ⟨_, _, ⟨hq, ha⟩, .inl ⟨_, hc, rfl⟩⟩
    · exact .inl ⟨_, _, ⟨hq, ha⟩, .inr ⟨_, _, ⟨hr, hs⟩, rfl⟩⟩
    · exact .inr ⟨_, _, ⟨hr, hs⟩, rfl⟩

theorem questionRank_of_mem {x : Question × Nat} {c : Candidate} (h : c ∈ iv.candidatesOf x) :
    c.questionRank = (rankOf Question.index x : Place ×ₗ Nat) := by
  rcases List.mem_append.1 h with h | h
  · obtain ⟨_, -, rfl⟩ := Option.map_eq_some_iff.1 (Option.mem_toList.1 h)
    rfl
  · obtain ⟨_, -, rfl⟩ := List.mem_map.1 h
    rfl

/-- With one rank of a question, the ranks of the rules decide. -/
theorem key_lt_of_ruleRank {a b : Candidate} (h : a.questionRank = b.questionRank)
    (hrule : a.ruleRank < b.ruleRank) : a.key < b.key :=
  Prod.Lex.toLex_lt_toLex.2 (.inr ⟨h, hrule⟩)

theorem key_lt_of_questionRank {a b : Candidate} (h : a.questionRank < b.questionRank) :
    a.key < b.key :=
  Prod.Lex.toLex_lt_toLex.2 (.inl h)

/-- A question is found by its id if ids tell questions apart. -/
theorem question?_id (hquestions : Named Question.id iv.survey.questions) {q : Question}
    (hq : q ∈ iv.survey.questions) : iv.survey.question? q.id = some q := by
  have hequal (q' : Question) : q'.id.equal q.id = true ↔ q'.id = q.id :=
    Value.equal_iff_of_isText (hquestions.texts q hq)
  exact find?_eq_some_of_unique hq ((hequal q).2 rfl) fun q' hq' hname =>
    hquestions.eq_of_id hq' hq ((hequal q').1 hname)

namespace Leavable

variable (h : iv.Leavable s page)
include h

theorem isPlaced_index (test : Question → Bool) :
    ((iv.survey.questions.filter test).all fun q => q.index.isPlaced) = true :=
  List.all_eq_true.2 fun q hq => by
    simp [Value.isPlaced, h.indexes q (List.mem_filter.1 hq).1]

theorem isPlaced_priority {rules : List JumpRule}
    (hrules : ∀ r ∈ rules, r ∈ iv.survey.jumpRules ++ iv.survey.pageJumpRules)
    (test : JumpRule → Bool) : ((rules.filter test).all fun r => r.priority.isPlaced) = true :=
  List.all_eq_true.2 fun r hr => by
    simp [Value.isPlaced, h.priorities r (hrules r (List.mem_filter.1 hr).1)]

theorem pairwise_rulesFrom {rules : List JumpRule}
    (hrules : ∀ r ∈ rules, r ∈ iv.survey.jumpRules ++ iv.survey.pageJumpRules) (source : Id) :
    (rulesFrom rules source).Pairwise fun x y =>
      rankOf JumpRule.priority x < rankOf JumpRule.priority y :=
  pairwise_ranked (h.isPlaced_priority hrules _)

theorem pairwise_candidatesOf (x : Question × Nat) :
    (iv.candidatesOf x).Pairwise fun a b => a.key < b.key := by
  refine List.pairwise_append.2 ⟨?_, List.pairwise_map.2 ?_, fun a ha b hb => ?_⟩
  · cases x.1.terminateIf with
    | none => exact .nil
    | some c => exact List.pairwise_singleton _ _
  · refine (h.pairwise_rulesFrom (fun r hr => List.mem_append_left _ hr) x.1.id).imp fun hlt => ?_
    exact key_lt_of_ruleRank rfl (WithBot.coe_lt_coe.2 hlt)
  · obtain ⟨c, -, rfl⟩ := Option.map_eq_some_iff.1 (Option.mem_toList.1 ha)
    obtain ⟨r, -, rfl⟩ := List.mem_map.1 hb
    exact key_lt_of_ruleRank rfl (WithBot.bot_lt_coe _)

/-- The keys of the candidates rise. -/
theorem pairwise_candidates : (iv.candidates s page).Pairwise fun a b => a.key < b.key := by
  refine List.pairwise_append.2 ⟨List.pairwise_flatMap.2 ⟨fun x _ => h.pairwise_candidatesOf x, ?_⟩,
    List.pairwise_map.2 ?_, fun a ha b hb => ?_⟩
  · refine (pairwise_ranked (h.isPlaced_index _)).imp fun {x y} hlt a ha b hb => ?_
    refine key_lt_of_questionRank ?_
    rw [questionRank_of_mem ha, questionRank_of_mem hb]
    exact WithTop.coe_lt_coe.2 hlt
  · refine (h.pairwise_rulesFrom (fun r hr => List.mem_append_right _ hr) page).imp fun hlt => ?_
    exact key_lt_of_ruleRank rfl (WithBot.coe_lt_coe.2 hlt)
  · obtain ⟨x, -, hx⟩ := List.mem_flatMap.1 ha
    obtain ⟨r, -, rfl⟩ := List.mem_map.1 hb
    refine key_lt_of_questionRank ?_
    rw [questionRank_of_mem hx]
    exact WithTop.coe_lt_top _

/-! ## The work -/

/-- The rules with a source are tried in order. -/
theorem first_yields {rules : List JumpRule}
    (hrules : ∀ r ∈ rules, r ∈ iv.survey.jumpRules ++ iv.survey.pageJumpRules) {source : Id}
    (hresults : ∀ x ∈ rulesFrom rules source, ∃ o,
      Jump.ruleResult iv.survey (s.context iv.survey) x.1 = .ok o) :
    Yields (· = s) (Jump.first iv.survey iv.quiet (rules.filter fun r => r.source.equal source))
      fun o t => t = s ∧ o = (rulesFrom rules source).findSome? fun x =>
        Jump.fired (Jump.ruleResult iv.survey (s.context iv.survey) x.1) := by
  have hsorted : (rulesFrom rules source).map Prod.fst =
      sortedBy JumpRule.priority (rules.filter fun r => r.source.equal source) :=
    map_ranked (h.isPlaced_priority hrules _)
  refine (Jump.first_yields (fun r hr => ?_) fun r hr => ?_).mono (fun _ ht => ht) fun o t ho => ?_
  · exact h.priorities r (hrules r (List.mem_filter.1 hr).1)
  · rw [← (sortedBy_perm JumpRule.priority _).mem_iff, ← hsorted] at hr
    obtain ⟨x, hx, rfl⟩ := List.mem_map.1 hr
    exact hresults x hx
  · refine ⟨ho.1, ho.2.trans ?_⟩
    rw [← hsorted, List.findSome?_map]
    rfl

/-- An answer decides by the first candidate of its question that fires. -/
theorem ofAnswer_yields {x : Question × Nat} (hx : x ∈ iv.answeredOn s page) :
    Yields (· = s) (Jump.ofAnswer iv.survey iv.quiet x.1.id) fun o t => t = s ∧
      o = (iv.candidatesOf x).findSome? (iv.firedOf s) := by
  obtain ⟨hposition, hanswered⟩ := mem_answeredOn.1 hx
  have htermination := @Jump.termination_yields iv.survey iv.quiet s x.1
    (question?_id h.questions (List.mem_of_getElem? hposition))
    fun c hc => h.results _ (.termination hposition hanswered hc)
  have hrules := @first_yields _ _ _ h _ (fun r hr => List.mem_append_left _ hr) x.1.id
    fun y hy => by
      obtain ⟨hr, hsource⟩ := mem_rulesFrom.1 hy
      exact h.results _ (.rule hposition hanswered hr hsource)
  have hfirst : ((x.1.terminateIf.map (Candidate.termination x.2 x.1)).toList.findSome?
      (iv.firedOf s)) = x.1.terminateIf.bind fun c =>
        Jump.fired (Jump.terminationResult (s.context iv.survey) c) := by
    cases x.1.terminateIf with
    | none => rfl
    | some c => exact List.findSome?_singleton
  rw [candidatesOf, List.findSome?_append, List.findSome?_map, hfirst]
  refine .bind_known htermination ?_
  cases x.1.terminateIf.bind fun c =>
      Jump.fired (Jump.terminationResult (s.context iv.survey) c) with
  | some o => exact .pure fun _ ht => ⟨ht, rfl⟩
  | none => exact hrules

theorem firstOutcome_yields : ∀ {l : List (Question × Nat)}, (∀ x ∈ l, x ∈ iv.answeredOn s page) →
    Yields (· = s) (iv.firstOutcome (l.map Prod.fst)) fun o t => t = s ∧
      o = (l.flatMap iv.candidatesOf).findSome? (iv.firedOf s)
  | [], _ => .pure fun _ ht => ⟨ht, rfl⟩
  | x :: l, hl => by
    rw [List.flatMap_cons, List.findSome?_append]
    refine .bind_known (h.ofAnswer_yields (hl x (.head _))) ?_
    cases (iv.candidatesOf x).findSome? (iv.firedOf s) with
    | some o => exact .pure fun _ ht => ⟨ht, rfl⟩
    | none => exact firstOutcome_yields fun y hy => hl y (.tail _ hy)

/-- The questions that are asked are those that the respondent could see and answered, in order. -/
theorem answeredOn_yields : Yields (· = s) (iv.answeredQuestions page) fun answered t => t = s ∧
    answered = (iv.answeredOn s page).map Prod.fst := by
  have hplaced := h.isPlaced_index fun q => q.pageId.equal page
  have hsorted : (iv.answeredOn s page).map Prod.fst = (iv.survey.questionsOnPage page).filter
      fun q => s.responses.contains q.id && Context.isFavourable (iv.sightVerdict s page q) := by
    rw [answeredOn, map_ranked (h.isPlaced_index _), Survey.questionsOnPage,
      filter_sortedBy_comm hplaced, List.filter_filter]
    exact congrArg _ (List.filter_congr fun q _ => Bool.and_comm _ _)
  have honPage : ∀ q ∈ iv.survey.questionsOnPage page,
      q ∈ iv.survey.questions ∧ q.pageId.equal page = true := fun q hq =>
    List.mem_filter.1 ((sortedBy_perm _ _).mem_iff.1 hq)
  have hcomparable :
      demandComparable ((iv.survey.questionsOnPage page).map Question.index) = .ok () :=
    Jump.demandComparable_of_isSized <| List.forall_mem_map.2 fun q hq =>
      h.indexes q (honPage q hq).1
  rw [hsorted]
  refine .bind .session fun t => .given (fun _ ht => ht.2.trans ht.1) ?_
  rintro rfl
  refine Yields.mono ?_ (fun _ ht => ht.1) fun _ _ hs => hs
  refine .bind_known (v := ()) (.ofOk hcomparable) (.keep_known fun q hq => ?_)
  obtain ⟨hmem, hpage⟩ := honPage q hq
  have hkey : demandKeys [q.id] = .ok () :=
    demandKeys_eq_ok_iff.2 <| List.forall_mem_singleton.2 <|
      Value.isCompound_of_isText (h.questions.texts q hmem)
  refine .bind_known (v := ()) (.ofOk hkey) ?_
  cases hanswer : t.responses.contains q.id with
  | false => exact .pure fun _ hs => ⟨hs, rfl⟩
  | true =>
    obtain ⟨b, hb⟩ := h.sights q hmem hpage hanswer
    rw [hb]
    refine .of_reads_known (reads_couldSee page q) ?_
    rintro _ rfl
    exact hb

/-- Leaving a page is decided by the first candidate that fires. -/
theorem jumpOnLeaving_yields : Yields (· = s) (iv.jumpOnLeaving page) fun o t => t = s ∧
    o = (iv.candidates s page).findSome? (iv.firedOf s) := by
  have hpageRules := @first_yields _ _ _ h _ (fun r hr => List.mem_append_right _ hr) page
    fun y hy => by
      obtain ⟨hr, hsource⟩ := mem_rulesFrom.1 hy
      exact h.results _ (.pageRule hr hsource)
  rw [candidates, List.findSome?_append, List.findSome?_map]
  refine .bind_known h.answeredOn_yields <| .bind_known (h.firstOutcome_yields fun _ hx => hx) ?_
  cases ((iv.answeredOn s page).flatMap iv.candidatesOf).findSome? (iv.firedOf s) with
  | some o => exact .pure fun _ ht => ⟨ht, rfl⟩
  | none => exact hpageRules

end Leavable

/-! ## The order of the rules -/

/-- The interview with other jump rules of questions. -/
def withJumpRules (iv : Interview) (rules : List JumpRule) : Interview :=
  { iv with survey := { iv.survey with jumpRules := rules } }

/-- Rules in another order, in which those of one source and one priority stand as before. -/
structure Reordered (rules before : List JumpRule) : Prop where
  perm : rules.Perm before
  ties : ∀ (source : Id) (k : Place),
    rules.filter (fun r => r.source.equal source && decide (r.priority.place = k)) =
      before.filter fun r => r.source.equal source && decide (r.priority.place = k)

theorem firstOf_withJumpRules (rules : List JumpRule) : ∀ l : List JumpRule,
    Jump.firstOf (iv.withJumpRules rules).survey iv.quiet l = Jump.firstOf iv.survey iv.quiet l
  | [] => rfl
  | r :: l => by
    unfold Jump.firstOf
    rw [firstOf_withJumpRules rules l]
    rfl

section
variable {rules : List JumpRule} (hnumbers : ∀ r ∈ iv.survey.jumpRules, r.priority.isSized = true)
  (h : Reordered rules iv.survey.jumpRules)
include hnumbers h

/-- The rules of a question are tried in the same order. -/
theorem sortedBy_reordered (questionId : Id) :
    sortedBy JumpRule.priority (rules.filter fun r => r.source.equal questionId) =
      sortedBy JumpRule.priority (iv.survey.jumpRulesFor questionId) := by
  have hplaced : ∀ l : List JumpRule, (∀ r ∈ l, r ∈ iv.survey.jumpRules) →
      (l.all fun r => r.priority.isPlaced) = true := fun l hl =>
    List.all_eq_true.2 fun r hr => by simp [Value.isPlaced, hnumbers r (hl r hr)]
  refine sortedBy_congr (hplaced _ fun r hr => h.perm.mem_iff.1 (List.mem_filter.1 hr).1)
    (hplaced _ fun r hr => (List.mem_filter.1 hr).1) fun k => ?_
  simp only [Survey.jumpRulesFor, List.filter_filter, Bool.and_comm (decide _), h.ties]

theorem ofAnswer_reordered (questionId : Id) :
    Jump.ofAnswer (iv.withJumpRules rules).survey iv.quiet questionId =
      Jump.ofAnswer iv.survey iv.quiet questionId := by
  have hcomparable : ∀ l : List JumpRule, (∀ r ∈ l, r ∈ iv.survey.jumpRules) →
      demandComparable (l.map JumpRule.priority) = .ok () := fun l hl =>
    Jump.demandComparable_of_isSized <| List.forall_mem_map.2 fun r hr => hnumbers r (hl r hr)
  have hquestion : Jump.ofQuestion (iv.withJumpRules rules).survey iv.quiet questionId =
      Jump.ofQuestion iv.survey iv.quiet questionId := by
    have hrules : (iv.withJumpRules rules).survey.jumpRulesFor questionId =
        rules.filter fun r => r.source.equal questionId := rfl
    unfold Jump.ofQuestion Jump.first Flow.demandComparable
    rw [hrules, firstOf_withJumpRules, sortedBy_reordered hnumbers h,
      hcomparable _ fun r hr => h.perm.mem_iff.1 (List.mem_filter.1 hr).1,
      hcomparable (iv.survey.jumpRulesFor questionId) fun r hr => (List.mem_filter.1 hr).1]
  unfold Jump.ofAnswer
  rw [hquestion]
  rfl

theorem firstOutcome_reordered : ∀ questions : List Question,
    (iv.withJumpRules rules).firstOutcome questions = iv.firstOutcome questions
  | [] => rfl
  | q :: r => by
    unfold firstOutcome
    rw [firstOutcome_reordered r]
    exact congrArg (· >>= _) (ofAnswer_reordered hnumbers h q.id)

/-- Leaving a page is decided in the same way. -/
theorem jumpOnLeaving_reordered (page : Id) :
    (iv.withJumpRules rules).jumpOnLeaving page = iv.jumpOnLeaving page := by
  have hquiet : (iv.withJumpRules rules).quiet = iv.quiet := rfl
  have hpage : Jump.ofPage (iv.withJumpRules rules).survey iv.quiet page =
      Jump.ofPage iv.survey iv.quiet page := by
    unfold Jump.ofPage Jump.first
    rw [firstOf_withJumpRules]
    rfl
  have hanswered : (iv.withJumpRules rules).answeredQuestions page = iv.answeredQuestions page :=
    rfl
  unfold jumpOnLeaving
  simp only [firstOutcome_reordered hnumbers h, hanswered, hquiet, hpage]

end

/-! ## The least candidate decides -/

/-- A candidate that fires with an outcome and before which no candidate fires. -/
structure IsLeastFiring (iv : Interview) (s : Session) (page : Id) (c : Candidate)
    (o : JumpOutcome) : Prop where
  isCandidate : iv.IsCandidate s page c
  fires : c.result iv.survey (s.context iv.survey) = .ok (some o)
  least : ∀ c' o', iv.IsCandidate s page c' →
    c'.result iv.survey (s.context iv.survey) = .ok (some o') → c.key ≤ c'.key

/-- Leaving a page is decided by the least candidate that fires, and by none if none fires. Nothing
in the session is changed. Jump rules may be put in another order, as long as those of one question
and one priority stand as before. -/
theorem jumpOnLeaving_least (d : Desk) (h : iv.Leavable d.session page) :
    ∃ o d', (iv.jumpOnLeaving page).perform d = (.ok o, d') ∧ d'.session = d.session ∧
      (∀ x, o = some x ↔ ∃ c, iv.IsLeastFiring d.session page c x) ∧
      (o = none ↔ ∀ c, iv.IsCandidate d.session page c →
        c.result iv.survey (d.session.context iv.survey) = .ok none) ∧
      ∀ rules, Reordered rules iv.survey.jumpRules →
        (iv.withJumpRules rules).jumpOnLeaving page = iv.jumpOnLeaving page := by
  obtain ⟨o, d', hperform, hsession, ho⟩ := h.jumpOnLeaving_yields d rfl
  refine ⟨o, d', hperform, hsession, fun x => ?_, ?_, fun rules hrules => ?_⟩
  · rw [ho, findSome?_eq_some_iff_of_pairwise h.pairwise_candidates]
    simp only [mem_candidates, firedOf, Option.isSome_iff_exists, Jump.fired_eq_some_iff]
    constructor
    · rintro ⟨c, hc, hfires, hleast⟩
      exact ⟨c, hc, hfires, fun c' o' hc' ho' => hleast c' hc' ⟨o', ho'⟩⟩
    · rintro ⟨c, hc, hfires, hleast⟩
      exact ⟨c, hc, hfires, fun c' hc' ⟨o', ho'⟩ => hleast c' o' hc' ho'⟩
  · rw [ho, List.findSome?_eq_none_iff]
    simp only [mem_candidates, firedOf]
    refine forall₂_congr fun c hc => ?_
    obtain ⟨o', ho'⟩ := h.results c hc
    rw [ho', Except.ok.injEq]
    rfl
  · exact jumpOnLeaving_reordered (fun r hr => h.priorities r (List.mem_append_left _ hr)) hrules
      page

end Interview

/-! ## A rule that comes first by its priority -/

namespace Sample.Priorities

open BrandTracker

/-- The rule that leads everyone to the last page, authored first. -/
def shortcut : JumpRule where
  id := .text "j_shortcut"
  source := .text "q_age"
  destination := ⟨.page, .text "p_thanks"⟩
  condition := none
  priority := .int 2

/-- The interview with the brand tracker. -/
def interview : Interview :=
  ⟨{ BrandTracker.survey (.int 2) with jumpRules := [shortcut, underage] }, Settings.default,
    .ofScript [0]⟩

/-- The page of the question. -/
def screen : Id := .text "p_screen"

/-- The session of a respondent of twelve years. -/
def child : Session := (Session.new (.text "demo") (.text "brand_tracker") ∅).respond
  (.text "q_age") (.int 12)

theorem result_shortcut :
    Jump.ruleResult interview.survey (child.context interview.survey) shortcut =
      .ok (some ⟨.text "j_shortcut", shortcut.destination, some (.text "p_thanks"), none⟩) := by
  decide +kernel

theorem result_underage :
    Jump.ruleResult interview.survey (child.context interview.survey) underage =
      .ok (some ⟨.text "j_underage", .atEnd, none, none⟩) := by
  decide +kernel

/-- The only candidates are the two rules of the question. -/
theorem eq_of_isCandidate {c : Interview.Candidate} (h : interview.IsCandidate child screen c) :
    c = .rule 0 questions[0] 0 shortcut ∨ c = .rule 0 questions[0] 1 underage := by
  cases h with
  | termination hq _ hc =>
    have hnone : ∀ q ∈ interview.survey.questions, q.terminateIf = none := by decide
    rw [hnone _ (List.mem_of_getElem? hq)] at hc
    cases hc
  | @rule i j q r hq _ hr hs =>
    have hothers : ∀ q ∈ interview.survey.questions.tail,
        ∀ r ∈ interview.survey.jumpRules, r.source.equal q.id = false := by decide
    cases i with
    | succ i =>
      have hq : q ∈ interview.survey.questions.tail :=
        List.mem_of_getElem? (by rwa [List.getElem?_tail])
      rw [hothers q hq r (List.mem_of_getElem? hr)] at hs
      cases hs
    | zero =>
      obtain rfl : questions[0] = q := Option.some.inj hq
      match j, hr with
      | 0, hr => exact .inl (by rw [← Option.some.inj hr])
      | 1, hr => exact .inr (by rw [← Option.some.inj hr])
  | pageRule hr => cases hr

theorem leavable : interview.Leavable child screen where
  questions := ⟨by decide, by decide⟩
  indexes := by decide
  priorities := by decide
  sights q hq _ _ := by
    have hseen : ∀ q ∈ interview.survey.questions,
        interview.sightVerdict child screen q = .ok true := by decide
    exact ⟨true, hseen q hq⟩
  results c hc := by
    rcases eq_of_isCandidate hc with rfl | rfl
    · exact ⟨_, result_shortcut⟩
    · exact ⟨_, result_underage⟩

theorem isCandidate_underage :
    interview.IsCandidate child screen (.rule 0 questions[0] 1 underage) :=
  .rule rfl (by decide) rfl (by decide)

theorem rank_underage :
    rankOf JumpRule.priority (underage, 1) < rankOf JumpRule.priority (shortcut, 0) := by
  have hplace : ¬ (Value.int 2).place ≤ (Value.int 1).place := by
    rw [Value.place_int_le_iff]
    decide
  exact Prod.Lex.toLex_lt_toLex.2 (.inl (lt_of_not_ge hplace))

/-- The rule that ends the survey comes first. -/
theorem isLeastFiring_underage : interview.IsLeastFiring child screen
    (.rule 0 questions[0] 1 underage) ⟨.text "j_underage", .atEnd, none, none⟩ where
  isCandidate := isCandidate_underage
  fires := result_underage
  least c' _ hc' _ := by
    rcases eq_of_isCandidate hc' with rfl | rfl
    · have hrule : (Interview.Candidate.rule 0 questions[0] 1 underage).ruleRank <
          (Interview.Candidate.rule 0 questions[0] 0 shortcut).ruleRank :=
        WithBot.coe_lt_coe.2 rank_underage
      have hquestion : (Interview.Candidate.rule 0 questions[0] 1 underage).questionRank =
          (Interview.Candidate.rule 0 questions[0] 0 shortcut).questionRank := rfl
      exact (Interview.key_lt_of_ruleRank hquestion hrule).le
    · exact le_refl _

end Sample.Priorities

open Sample.Priorities in
/-- The rule of the lower priority ends the survey, though another one was authored before it. -/
theorem Interview.jumpOnLeaving_least_underage : interview.Leavable child screen ∧
    ∃ d', (interview.jumpOnLeaving screen).perform ⟨child, .ofScript [0], []⟩ =
      (.ok (some ⟨.text "j_underage", .atEnd, none, none⟩), d') ∧ d'.session = child := by
  obtain ⟨o, d', hperform, hsession, hfires, -⟩ :=
    Interview.jumpOnLeaving_least ⟨child, .ofScript [0], []⟩ leavable
  obtain rfl := (hfires _).2 ⟨_, isLeastFiring_underage⟩
  exact ⟨leavable, d', hperform, hsession⟩

end Questionnaire
