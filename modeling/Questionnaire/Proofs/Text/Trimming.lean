import Mathlib.Data.List.TakeWhile
import Questionnaire.Text.Blank

/-!
# What trimming takes off

Trimming a text takes off blanks at its start and at its end (`exists_blanks`). Blanks that are put
there are taken off as well (`trim_blank_append`, `trim_append_blank`), and what is put behind a text
that is not blank does not matter for its start (`trimStart_append`).
-/

namespace Questionnaire.Text

variable {w t cs : List Char}

/-- Trimming takes off blanks at the start and at the end. -/
theorem exists_blanks (cs : List Char) : ∃ w w', cs = w ++ trim cs ++ w' ∧
    (∀ c ∈ w, isBlank c = true) ∧ ∀ c ∈ w', isBlank c = true := by
  refine ⟨cs.takeWhile isBlank, ((trimStart cs).reverse.takeWhile isBlank).reverse, ?_,
    fun c hc => List.mem_takeWhile_imp hc, fun c hc => ?_⟩
  · rw [List.append_assoc, trim, trimEnd, ← List.reverse_append, List.takeWhile_append_dropWhile,
      List.reverse_reverse, trimStart, List.takeWhile_append_dropWhile]
  · exact List.mem_takeWhile_imp (List.mem_reverse.1 hc)

theorem trimStart_eq_nil_iff : trimStart cs = [] ↔ ∀ c ∈ cs, isBlank c = true :=
  List.dropWhile_eq_nil_iff

theorem trimEnd_eq_nil_iff : trimEnd cs = [] ↔ ∀ c ∈ cs, isBlank c = true := by
  simp [trimEnd]

theorem trimStart_append (h : trimStart t ≠ []) : trimStart (t ++ cs) = trimStart t ++ cs := by
  have hne : (t.dropWhile isBlank).isEmpty = false := List.isEmpty_eq_false_iff.2 h
  simp [trimStart, List.dropWhile_append, hne]

theorem trimEnd_append (h : trimEnd t ≠ []) : trimEnd (cs ++ t) = cs ++ trimEnd t := by
  have hne : (t.reverse.dropWhile isBlank).isEmpty = false := by
    refine List.isEmpty_eq_false_iff.2 fun hnil => h ?_
    rw [trimEnd, hnil, List.reverse_nil]
  simp [trimEnd, List.dropWhile_append, hne]

theorem trim_blank_append (hw : ∀ c ∈ w, isBlank c = true) : trim (w ++ cs) = trim cs := by
  have hnil : w.dropWhile isBlank = [] := trimStart_eq_nil_iff.2 hw
  simp [trim, trimStart, List.dropWhile_append, hnil]

theorem trim_append_blank (hw : ∀ c ∈ w, isBlank c = true) : trim (cs ++ w) = trim cs := by
  have hend (x : List Char) : trimEnd (x ++ w) = trimEnd x := by
    have hnil : w.reverse.dropWhile isBlank = [] :=
      trimStart_eq_nil_iff.2 fun c hc => hw c (List.mem_reverse.1 hc)
    simp [trimEnd, List.dropWhile_append, hnil]
  by_cases hcs : trimStart cs = []
  · have hall : trimStart (cs ++ w) = [] := by
      refine trimStart_eq_nil_iff.2 fun c hc => ?_
      exact (List.mem_append.1 hc).elim (trimStart_eq_nil_iff.1 hcs c) (hw c)
    rw [trim, trim, hall, hcs]
  · rw [trim, trimStart_append hcs, hend, trim]

theorem trim_trimStart (cs : List Char) : trim (trimStart cs) = trim cs := by
  have hcs : cs.takeWhile isBlank ++ trimStart cs = cs := List.takeWhile_append_dropWhile
  have htrim : trim (cs.takeWhile isBlank ++ trimStart cs) = trim (trimStart cs) :=
    trim_blank_append fun c hc => List.mem_takeWhile_imp hc
  rw [← htrim, hcs]

theorem trim_trimEnd (cs : List Char) : trim (trimEnd cs) = trim cs := by
  have hcs : trimEnd cs ++ (cs.reverse.takeWhile isBlank).reverse = cs := by
    rw [trimEnd, ← List.reverse_append, List.takeWhile_append_dropWhile, List.reverse_reverse]
  have htrim : trim (trimEnd cs ++ (cs.reverse.takeWhile isBlank).reverse) = trim (trimEnd cs) :=
    trim_append_blank fun c hc => List.mem_takeWhile_imp (List.mem_reverse.1 hc)
  rw [← htrim, hcs]

theorem trim_trim (cs : List Char) : trim (trim cs) = trim cs :=
  (trim_trimEnd (trimStart cs)).trans (trim_trimStart cs)

/-- There is nothing to trim between two characters that are not blank. -/
theorem trim_eq_self {x y : Char} {r : List Char} (hx : isBlank x = false) (hy : isBlank y = false) :
    trim (x :: (r ++ [y])) = x :: (r ++ [y]) := by
  have hstart : trimStart (x :: (r ++ [y])) = x :: (r ++ [y]) := by
    rw [trimStart, List.dropWhile_cons_of_neg (by simp [hx])]
  rw [trim, hstart, trimEnd]
  simp [hy]

end Questionnaire.Text
