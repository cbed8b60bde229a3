import Questionnaire.Proofs.Condition.Forms
import Questionnaire.Proofs.Condition.Selecting
import Questionnaire.Proofs.Number.Representable

/-!
# Integers as literals

The decimal text of an integer is read through a binary number. So it stands for the integer only if
that is a binary number itself (`readInteger_eq_iff`); any other integer in range is read as the one
that it is rounded to (`exists_readInteger`), and out of range an infinite number is read.

An answer that is the integer tells the difference in tests of selected values, which compare texts.
Equality does not: it compares numbers, and the answer is rounded to the same one
(`valuesEqual_of_rounded`). Out of range neither has a verdict. All this holds wherever in a text
the integer stands and however the text is spaced (`integers_as_literals`).
-/

namespace Questionnaire.Condition

variable {n j : Int} {x : Binary64} {s v : String} {w : List Char} {ns : List (List Char)}
  {l : Literal} {ls : List Literal} {ctx : Context}

/-! ## What is read -/

/-- The literal that the decimal text of an integer is read as. -/
def readInteger (n : Int) : Literal := numberLiteral (toString n).toList

theorem literalForm_readInteger (n : Int) : LiteralForm (toString n).toList (readInteger n) :=
  literalForm_iff.2 ⟨⟨.number, (toString n).toList⟩, rfl, .number (Binary64.numeral_toString n),
    .number rfl⟩

theorem readInteger_eq (n : Int) : readInteger n =
    ((Binary64.ofRatio (decide (n < 0)) n.natAbs 1).toInt?.map .int).getD
      (.float (Binary64.ofRatio (decide (n < 0)) n.natAbs 1)) := by
  have hx := Binary64.ofChars?_toString n
  rw [Binary64.ofDecimal_zero] at hx
  rw [readInteger, numberLiteral_eq hx, if_neg (Binary64.point_not_mem_toString n)]

/-- In range the integer is read that the integer is rounded to. -/
theorem exists_readInteger (hn : Binary64.InRange n) : ∃ x j, Binary64.ofInt? n = some x ∧
    Binary64.ofInt? j = some x ∧ x.toInt? = some j ∧ (j = n ↔ Binary64.Representable n) ∧
    readInteger n = .int j := by
  obtain ⟨x, j, hx, hint, hj, hiff⟩ := Binary64.exists_rounded hn
  obtain rfl := Option.some.inj ((Binary64.ofInt?_eq_some hn).symm.trans hx)
  refine ⟨_, j, hx, hj, hint, hiff, ?_⟩
  rw [readInteger_eq, hint, Option.map_some, Option.getD_some]

/-- Out of range an infinite number is read. -/
theorem readInteger_of_not_inRange (hn : ¬Binary64.InRange n) :
    readInteger n = .float (.infinite (decide (n < 0))) := by
  rw [readInteger_eq, Binary64.ofRatio_of_not_inRange hn]
  rfl

theorem isNumber_readInteger (n : Int) : (readInteger n).isNumber = true := by
  by_cases hn : Binary64.InRange n
  · obtain ⟨x, j, -, -, -, -, hread⟩ := exists_readInteger hn
    rw [hread]
    rfl
  · rw [readInteger_of_not_inRange hn]
    rfl

/-- The integer itself is read if it is a binary number, and never otherwise. -/
theorem readInteger_eq_iff : readInteger n = .int n ↔ Binary64.Representable n := by
  by_cases hn : Binary64.InRange n
  · obtain ⟨x, j, -, -, -, hiff, hread⟩ := exists_readInteger hn
    rw [hread, Literal.int.injEq, hiff]
  · rw [readInteger_of_not_inRange hn]
    exact iff_of_false nofun fun h => hn h.1

/-! ## Answers that are the integer -/

/-- Integers that are rounded to the same number are equal. -/
theorem valuesEqual_of_rounded (hn : Binary64.ofInt? n = some x) (hj : Binary64.ofInt? j = some x)
    (hx : x.toInt? = some j) : valuesEqual (.int n) (.int j) = .ok true := by
  by_cases heq : (Value.int n).equal (.int j) = true
  · simp only [valuesEqual, heq, if_true]
  · have hsame := Binary64.eq_self_of_toInt? hx
    simp [valuesEqual, heq, isNumber, asNumber, hn, hj, hsame, bind, Except.bind]

/-- An integer out of range is compared with no number. -/
theorem valuesEqual_of_not_inRange (hn : ¬Binary64.InRange n) (negative : Bool) :
    valuesEqual (.int n) (.float (.infinite negative)) = .error .tooLarge := by
  have hnone : Binary64.ofInt? n = none := by
    rwa [← Option.not_isSome_iff_eq_none, Binary64.ofInt?_isSome_iff]
  have heq : (Value.int n).equal (.float (.infinite negative)) = false := by
    simp [Value.equal, Value.agrees, Value.canonical, Binary64.toInt?]
  simp [valuesEqual, heq, isNumber, asNumber, hnone, bind, Except.bind]

theorem equals_readInteger_iff :
    compareAnswer .equals (.int n) (readInteger n) = .ok true ↔ Binary64.InRange n := by
  have hcompare (l : Literal) :
      compareAnswer .equals (.int n) l = valuesEqual (.int n) (Literal.value l) := rfl
  by_cases hn : Binary64.InRange n
  · obtain ⟨x, j, hx, hj, hint, -, hread⟩ := exists_readInteger hn
    rw [hread]
    exact iff_of_true (valuesEqual_of_rounded hx hj hint) hn
  · rw [readInteger_of_not_inRange hn, hcompare, Literal.value,
      valuesEqual_of_not_inRange hn (decide (n < 0))]
    exact iff_of_false nofun hn

theorem selects_any_singleton : Selects (.int n) [.int j] .any ↔ j = n := by
  constructor
  · rintro ⟨y, hy, l, hl, hsame⟩
    rw [List.mem_singleton.1 hl, List.mem_singleton.1 hy] at hsame
    exact (Binary64.toString_injective hsame).symm
  · rintro rfl
    exact ⟨.int j, .head _, .int j, .head _, rfl⟩

theorem any_readInteger_iff :
    testSelection .any (.int n) [readInteger n] = .ok true ↔ Binary64.Representable n := by
  by_cases hn : Binary64.InRange n
  · obtain ⟨x, j, -, hj, -, hiff, hread⟩ := exists_readInteger hn
    have hrange : Binary64.InRange j := (Binary64.ofInt?_isSome_iff j).1 (by rw [hj]; rfl)
    have hcomparable : Comparable (.int n) [.int j] :=
      ⟨List.forall_mem_singleton.2 fun hout => outOfRange_int.1 hout hn,
        List.forall_mem_singleton.2 fun hout => outOfRange_int.1 hout hrange⟩
    obtain ⟨verdict, hverdict, hselects⟩ := testSelection_eq_ok .any hcomparable
    rw [hread, hverdict, Except.ok.injEq, hselects, selects_any_singleton, hiff]
  · have hnot : ¬Comparable (.int n) [readInteger n] := fun h =>
      h.selected (.int n) (.head _) (outOfRange_int.2 hn)
    rw [testSelection_eq_error .any hnot]
    exact iff_of_false nofun fun h => hn h.1

/-! ## Texts that use a literal -/

/-- A text that compares a variable with the literal that a word is. -/
def Compares (s : String) (test : Comparison) (v : String) (w : List Char) : Prop :=
  ∃ rs, ReferenceForm rs v ∧
    Spaced s.toList (test.name.toList :: ['('] :: (rs ++ [[','], w, [')']]))

/-- A text that tests the selected values of a variable against the literals that words are. -/
def SelectsAmong (s : String) (test : SelectionTest) (v : String) (ns : List (List Char)) : Prop :=
  ∃ rs, ReferenceForm rs v ∧ Spaced s.toList (test.name.toList :: ['('] ::
    (rs ++ [','] :: (['['] :: (ns.intersperse [','] ++ [[']']]) ++ [[')']])))

theorem Compares.parse {test : Comparison} (h : Compares s test v w) (hl : LiteralForm w l)
    (hnumber : l.isNumber = true) : parse s = .ok (.comparison test v l) := by
  obtain ⟨rs, hrs, hs⟩ := h
  exact parse_of_form (.comparison hrs (.literal hl fun _ => hnumber)) hs

theorem SelectsAmong.parse {test : SelectionTest} (h : SelectsAmong s test v ns)
    (hls : List.Forall₂ LiteralForm ns ls) : parse s = .ok (.selection test v ls) := by
  obtain ⟨rs, hrs, hs⟩ := h
  exact parse_of_form (.selection hrs (.list hls)) hs

/-- Integers as literals, wherever they stand and however the text is spaced: the decimal text of an
integer is read as that integer exactly if the integer is a binary number. For an answer that is the
integer, a test whether it is selected holds exactly then, and equality holds exactly in range. -/
theorem integers_as_literals (n : Int) :
    (∀ s test v, Compares s test v (toString n).toList →
      (parse s = .ok (.comparison test v (.int n)) ↔ Binary64.Representable n)) ∧
    (∀ s test v ns ls ns' ls', List.Forall₂ LiteralForm ns ls → List.Forall₂ LiteralForm ns' ls' →
      SelectsAmong s test v (ns ++ (toString n).toList :: ns') →
      (parse s = .ok (.selection test v (ls ++ .int n :: ls')) ↔ Binary64.Representable n)) ∧
    ∀ (ctx : Context) v, ctx.resolve (.text v) = .ok (.int n) →
      (∀ s, SelectsAmong s .any v [(toString n).toList] →
        (ctx.judge s = .ok true ↔ Binary64.Representable n)) ∧
      ∀ s, Compares s .equals v (toString n).toList →
        (ctx.judge s = .ok true ↔ Binary64.InRange n) := by
  have hread := literalForm_readInteger n
  have hnumber := isNumber_readInteger n
  refine ⟨fun s test v hs => ?_, fun s test v ns ls ns' ls' hls hls' hs => ?_,
    fun ctx v hanswer => ⟨fun s hs => ?_, fun s hs => ?_⟩⟩
  · rw [hs.parse hread hnumber, ← readInteger_eq_iff]
    simp
  · have hall : List.Forall₂ LiteralForm (ns ++ (toString n).toList :: ns')
        (ls ++ readInteger n :: ls') := List.rel_append hls (.cons hread hls')
    rw [hs.parse hall, ← readInteger_eq_iff]
    simp
  · rw [Context.judge, hs.parse (.cons hread .nil)]
    simp only [judge_selection hanswer]
    exact any_readInteger_iff
  · rw [Context.judge, hs.parse hread hnumber]
    simp only [judge, hanswer]
    exact equals_readInteger_iff

/-- Beyond `2 ^ 53` every second integer is a binary number. -/
theorem integers_as_literals_even :
    let n : Int := -9007199254740994
    let ctx : Context := ⟨.ofList [(.text "Q", .int n)], ∅, []⟩
    let selecting := "anySelected ( answer(\"Q\"), [ -9007199254740994 ] )"
    let comparing := " equals('Q',-9007199254740994)"
    (ctx.resolve (.text "Q") = .ok (.int n) ∧
      SelectsAmong selecting .any "Q" [(toString n).toList] ∧
      Compares comparing .equals "Q" (toString n).toList) ∧
    parse comparing = .ok (.comparison .equals "Q" (.int n)) ∧
    parse selecting = .ok (.selection .any "Q" [.int n]) ∧
    ctx.judge selecting = .ok true ∧ ctx.judge comparing = .ok true := by
  intro n ctx selecting comparing
  have hdigits : (toString n).toList = "-9007199254740994".toList := by decide +kernel
  have hrepresentable : Binary64.Representable n :=
    ⟨by decide +kernel, 4503599627370497, 1, by decide, by decide⟩
  have hselecting : SelectsAmong selecting .any "Q" [(toString n).toList] := by
    have htokens : tokens selecting.toList = .ok [⟨.name, "anySelected".toList⟩, markToken '(',
        ⟨.name, "answer".toList⟩, markToken '(', ⟨.string, "\"Q\"".toList⟩, markToken ')',
        markToken ',', markToken '[', ⟨.number, "-9007199254740994".toList⟩, markToken ']',
        markToken ')'] := by decide +kernel
    rw [hdigits]
    exact ⟨_, .answer (.quoted rfl (.plain (by decide) (by decide) .close)),
      (tokens_eq_ok_iff.1 htokens).1.spaced⟩
  have hcomparing : Compares comparing .equals "Q" (toString n).toList := by
    have htokens : tokens comparing.toList = .ok [⟨.name, "equals".toList⟩, markToken '(',
        ⟨.string, "'Q'".toList⟩, markToken ',', ⟨.number, "-9007199254740994".toList⟩,
        markToken ')'] := by decide +kernel
    rw [hdigits]
    exact ⟨_, .quoted (.quoted rfl (.plain (by decide) (by decide) .close)),
      (tokens_eq_ok_iff.1 htokens).1.spaced⟩
  have hanswer : ctx.resolve (.text "Q") = .ok (.int n) := rfl
  obtain ⟨hcompared, hselected, hverdicts⟩ := integers_as_literals n
  obtain ⟨hany, hequals⟩ := hverdicts ctx "Q" hanswer
  exact ⟨⟨hanswer, hselecting, hcomparing⟩, (hcompared _ _ _ hcomparing).2 hrepresentable,
    (hselected _ _ _ [] [] [] [] .nil .nil hselecting).2 hrepresentable,
    (hany _ hselecting).2 hrepresentable, (hequals _ hcomparing).2 hrepresentable.1⟩

/-- `2 ^ 53 + 1` is read as its neighbour, and is not found among the selected values of an answer
that is the integer. -/
theorem integer_literal_rounded :
    let ctx : Context := ⟨.ofList [(.text "Q", .int 9007199254740993)], ∅, []⟩
    ctx.resolve (.text "Q") = .ok (.int 9007199254740993) ∧
    parse "equals(answer('Q'), 9007199254740993)" =
      .ok (.comparison .equals "Q" (.int 9007199254740992)) ∧
    parse "anySelected('Q', [9007199254740993])" =
      .ok (.selection .any "Q" [.int 9007199254740992]) ∧
    ctx.judge "anySelected('Q', [9007199254740993])" = .ok false := by
  intro ctx
  have hparse : parse "anySelected('Q', [9007199254740993])" =
      .ok (.selection .any "Q" [.int 9007199254740992]) := by decide +kernel
  refine ⟨rfl, by decide +kernel, hparse, ?_⟩
  rw [Context.judge, hparse]
  rfl

end Questionnaire.Condition
