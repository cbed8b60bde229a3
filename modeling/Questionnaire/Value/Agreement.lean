import Questionnaire.Value.Basic

/-!
# Agreement of values

Parts of a survey are found by their ids, and what a session holds is kept under ids. Two ids mean
the same when they agree: numbers agree when they are the same number, of whatever kind, and truth
values are the numbers zero and one; a text agrees with no number. Every value has a canonical form,
and values agree exactly when their canonical forms are the same (`Value.agrees_iff`), so agreement
is an equivalence.

Values in agreement are equal, with one exception: what is stored as a number but is none agrees
with itself and equals nothing (`Value.equal`).
-/

namespace Questionnaire.Value

mutual

/-- The form of a value that all values in agreement with it have: a number without a fraction and a
truth value are written as the integer that they are. -/
def canonical : Value → Value
  | .bool b => .int b.toNat
  | .float x =>
    match x.toInt? with
    | some i => .int i
    | none => .float x
  | .list items => .list (canonicalItems items)
  | .map entries => .map (canonicalEntries entries)
  | v => v

/-- The canonical forms of the elements of a list. -/
def canonicalItems : List Value → List Value
  | [] => []
  | v :: r => canonical v :: canonicalItems r

/-- The entries of a mapping with the canonical forms of their values. -/
def canonicalEntries : List (String × Value) → List (String × Value)
  | [] => []
  | (k, v) :: r => (k, canonical v) :: canonicalEntries r

end

/-- Whether two values mean the same. -/
def agrees (v w : Value) : Bool := v.canonical == w.canonical

/-- Whether two values are equal: numbers and truth values as numbers, texts as texts, lists and
mappings by their parts. -/
def equal (v w : Value) : Bool := !v.isNan && v.agrees w

/-- Whether a value agrees with one of a list. -/
def isAmong (v : Value) (l : List Value) : Bool := l.any fun w => w.agrees v

theorem agrees_iff {v w : Value} : v.agrees w = true ↔ v.canonical = w.canonical := by
  simp [agrees]

theorem agrees_self (v : Value) : v.agrees v = true := agrees_iff.2 rfl

theorem agrees_comm (v w : Value) : v.agrees w = w.agrees v := by
  rw [Bool.eq_iff_iff, agrees_iff, agrees_iff]
  exact eq_comm

theorem agrees_trans {u v w : Value} (huv : u.agrees v = true) (hvw : v.agrees w = true) :
    u.agrees w = true :=
  agrees_iff.2 ((agrees_iff.1 huv).trans (agrees_iff.1 hvw))

/-- Of two values in agreement, one agrees with what the other agrees with. -/
theorem agrees_congr {v w : Value} (h : v.agrees w = true) (u : Value) :
    v.agrees u = w.agrees u := by
  simp only [agrees, agrees_iff.1 h]

@[simp] theorem canonical_text (s : String) : (Value.text s).canonical = .text s := by
  simp [canonical]

theorem agrees_of_equal {v w : Value} (h : v.equal w = true) : v.agrees w = true :=
  (Bool.and_eq_true_iff.1 h).2

/-- Equality is agreement but for what is stored as a number and is none. -/
theorem equal_of_isNan_eq_false {v : Value} (h : v.isNan = false) (w : Value) :
    v.equal w = v.agrees w := by
  simp [equal, h]

theorem text_agrees_text (s t : String) : (Value.text s).agrees (.text t) = (s == t) := by
  rw [Bool.eq_iff_iff, agrees_iff]
  simp

theorem isText_canonical (v : Value) : v.canonical.isText = v.isText := by
  cases v with
  | float x => simp only [canonical]; split <;> rfl
  | _ => simp [canonical, isText]

/-- A text agrees with texts only. -/
theorem agrees_of_isText_ne {v w : Value} (h : v.isText ≠ w.isText) : v.agrees w = false := by
  rw [Bool.eq_false_iff, Ne, agrees_iff]
  exact fun e => h (by rw [← isText_canonical v, e, isText_canonical])

/-- A text agrees with nothing but itself. -/
theorem eq_of_agrees {v w : Value} (hv : v.isText = true) (h : v.agrees w = true) : v = w := by
  cases v with
  | text s =>
    cases w with
    | text t =>
      rw [text_agrees_text, beq_iff_eq] at h
      rw [h]
    | _ =>
      rw [agrees_of_isText_ne (by simp [isText])] at h
      cases h
  | _ => cases hv

/-- A value equals a text exactly if it is the text. -/
theorem equal_iff_of_isText {v w : Value} (hw : w.isText = true) : v.equal w = true ↔ v = w := by
  constructor
  · intro h
    have hagree := agrees_of_equal h
    rw [agrees_comm] at hagree
    exact (eq_of_agrees hw hagree).symm
  · rintro rfl
    have hnan : v.isNan = false := by
      cases v with
      | text s => rfl
      | _ => cases hw
    rw [equal_of_isNan_eq_false hnan]
    exact agrees_self v

/-- A text is among others exactly if it is one of them. -/
theorem isAmong_iff_mem_of_isText {v : Value} (hv : v.isText = true) {l : List Value} :
    v.isAmong l = true ↔ v ∈ l := by
  refine ⟨fun hamong => ?_, fun hmem => List.any_eq_true.2 ⟨v, hmem, agrees_self v⟩⟩
  obtain ⟨w, hw, hagree⟩ := List.any_eq_true.1 hamong
  rw [agrees_comm] at hagree
  rw [eq_of_agrees hv hagree]
  exact hw

theorem isCompound_of_isText {v : Value} (hv : v.isText = true) : v.isCompound = false := by
  cases v <;> first | rfl | cases hv

theorem given?_of_isText {v : Value} (hv : v.isText = true) : v.given? = some v := by
  cases v <;> first | rfl | cases hv

end Questionnaire.Value
