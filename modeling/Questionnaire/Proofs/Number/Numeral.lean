import Questionnaire.Proofs.Number.Whole

/-!
# Numerals

A numeral is an optional minus and decimal digits of any script with at most one point, which may
stand at either end of the digits but not without any. Its digits are rewritten as those of ASCII,
and nothing else about it changes (`Unsigned.map_asciiDigit`). So every numeral is read as a number
(`exists_ofChars?_of_numeral`).
-/

namespace Questionnaire.Binary64

open Text

variable {c : Char} {n : List Char} {negative : Bool}

/-- Digits with at most one point, where `digit` tells the digits. -/
inductive Unsigned (digit : Char → Bool) : List Char → Prop
  | whole {w : List Char} : w ≠ [] → (∀ c ∈ w, digit c = true) → Unsigned digit w
  | pointed {w f : List Char} : w ++ f ≠ [] → (∀ c ∈ w ++ f, digit c = true) →
      Unsigned digit (w ++ '.' :: f)

/-- An optional minus and digits of any script with at most one point. -/
inductive Numeral : List Char → Prop
  | plain {n : List Char} : Unsigned isDigit n → Numeral n
  | minus {n : List Char} : Unsigned isDigit n → Numeral ('-' :: n)

namespace Unsigned

variable {digit : Char → Bool}

theorem ne_nil (h : Unsigned digit n) : n ≠ [] := by
  cases h with
  | whole hne _ => exact hne
  | pointed => simp

theorem digit_or_point (h : Unsigned digit n) : ∀ c ∈ n, digit c = true ∨ c = '.' := by
  intro c hc
  cases h with
  | whole _ hw => exact .inl (hw c hc)
  | pointed _ hwf =>
    rcases List.mem_append.1 hc with hc | hc
    · exact .inl (hwf c (List.mem_append_left _ hc))
    · exact (List.mem_cons.1 hc).symm.imp_left fun hc => hwf c (List.mem_append_right _ hc)

end Unsigned

theorem Numeral.ne_nil (h : Numeral n) : n ≠ [] := by
  cases h with
  | plain hn => exact hn.ne_nil
  | minus => exact List.cons_ne_nil _ _

/-- What is true of digits, the point and the minus is true of all characters of a numeral. -/
theorem Numeral.forall_mem {P : Char → Prop} (hdigit : ∀ c, isDigit c = true → P c)
    (hpoint : P '.') (hminus : P '-') (h : Numeral n) : ∀ c ∈ n, P c := by
  have hunsigned {n : List Char} (hn : Unsigned isDigit n) : ∀ c ∈ n, P c := by
    intro c hc
    rcases hn.digit_or_point c hc with hc | rfl
    · exact hdigit c hc
    · exact hpoint
  cases h with
  | plain hn => exact hunsigned hn
  | minus hn => exact List.forall_mem_cons.2 ⟨hminus, hunsigned hn⟩

/-! ## Digits of any script -/

/-- A digit stands behind the zero of its script by as much as its value. -/
theorem exists_digitValue (h : isDigit c = true) :
    ∃ z ∈ zeroDigits, ∃ d < 10, c = Char.ofNat (z + d) ∧ digitValue? c = some d := by
  obtain ⟨d, hd⟩ := Option.isSome_iff_exists.1 h
  obtain ⟨z, hz, rfl⟩ := Option.map_eq_some_iff.1 hd
  have hrange := List.find?_some hz
  simp only [Bool.and_eq_true, decide_eq_true_eq] at hrange
  refine ⟨z, List.mem_of_find?_eq_some hz, c.toNat - z, by omega, ?_, hd⟩
  rw [Nat.add_sub_cancel' hrange.1, Char.ofNat_toNat]

/-- What is true of the digits of every script. -/
theorem forall_isDigit {P : Char → Prop} (h : ∀ z ∈ zeroDigits, ∀ k < 10, P (Char.ofNat (z + k)))
    (hc : isDigit c = true) : P c := by
  obtain ⟨z, hz, d, hd, rfl, -⟩ := exists_digitValue hc
  exact h z hz d hd

/-- A digit of any script is written as a digit of ASCII. -/
theorem isDigit_asciiDigit (h : isDigit c = true) : (asciiDigit c).isDigit = true := by
  obtain ⟨-, -, d, hd, -, hvalue⟩ := exists_digitValue h
  have hascii : ∀ d < 10, (Char.ofNat (0x30 + d)).isDigit = true := by decide
  rw [asciiDigit, hvalue]
  exact hascii d hd

theorem Unsigned.map_asciiDigit (h : Unsigned isDigit n) :
    Unsigned Char.isDigit (n.map asciiDigit) := by
  have hpoint : asciiDigit '.' = '.' := by decide
  have hdigits {l : List Char} (hl : ∀ c ∈ l, isDigit c = true) :
      ∀ c ∈ l.map asciiDigit, c.isDigit = true :=
    List.forall_mem_map.2 fun c hc => isDigit_asciiDigit (hl c hc)
  cases h with
  | whole hne hw => exact .whole (by simpa using hne) (hdigits hw)
  | pointed hne hwf =>
    rw [List.map_append, List.map_cons, hpoint]
    refine .pointed ?_ ?_
    · rw [← List.map_append]
      simpa using hne
    · rw [← List.map_append]
      exact hdigits hwf

/-! ## Reading numerals -/

/-- Digits with at most one point are a decimal number without an exponent. -/
theorem exists_decimal? (h : Unsigned Char.isDigit n) : ∃ x, decimal? negative n = some x := by
  cases h with
  | whole hne hw =>
    have htake : n.takeWhile Char.isDigit = n := List.takeWhile_eq_self_iff.2 hw
    have hdrop : n.dropWhile Char.isDigit = [] := List.dropWhile_eq_nil_iff.2 hw
    simp [decimal?, htake, hdrop, hne, exponentPart?]
  | @pointed w f hne hwf =>
    have hw : ∀ c ∈ w, c.isDigit = true := fun c hc => hwf c (List.mem_append_left _ hc)
    have hf : ∀ c ∈ f, c.isDigit = true := fun c hc => hwf c (List.mem_append_right _ hc)
    have hpoint : Char.isDigit '.' = false := by decide
    have htake : (w ++ '.' :: f).takeWhile Char.isDigit = w := by
      rw [List.takeWhile_append_of_pos hw, List.takeWhile_cons_of_neg (by simp [hpoint]),
        List.append_nil]
    have hdrop : (w ++ '.' :: f).dropWhile Char.isDigit = '.' :: f := by
      rw [List.dropWhile_append_of_pos hw, List.dropWhile_cons_of_neg (by simp [hpoint])]
    have hempty : ¬(w.isEmpty && f.isEmpty) = true := by simpa using hne
    simp [decimal?, htake, hdrop, List.takeWhile_eq_self_iff.2 hf, List.dropWhile_eq_nil_iff.2 hf,
      hempty, exponentPart?]

/-- Every numeral is read as a number. -/
theorem exists_ofChars?_of_numeral (h : Numeral n) : ∃ x, ofChars? n = some x := by
  have hread {n : List Char} (hn : Unsigned isDigit n) (negative : Bool) :
      ∃ x, unsigned? negative (n.map asciiDigit) = some x := by
    rw [unsigned?_eq_decimal? hn.map_asciiDigit.digit_or_point hn.map_asciiDigit.ne_nil]
    exact exists_decimal? hn.map_asciiDigit
  have hblank {n : List Char} (hn : Unsigned isDigit n) :
      ∀ c ∈ n, isNumberBlank (asciiDigit c) = false := by
    have hmap : ∀ c ∈ n.map asciiDigit, isNumberBlank c = false := by
      intro c hc
      rcases hn.map_asciiDigit.digit_or_point c hc with hc | rfl
      · exact forall_digit (P := fun c => isNumberBlank c = false) (by decide) hc
      · decide
    exact List.forall_mem_map.1 hmap
  cases h with
  | plain hn =>
    rw [ofChars?, normalized_eq_map (hblank hn),
      splitSign_eq_self hn.map_asciiDigit.digit_or_point]
    exact hread hn false
  | @minus n hn =>
    have hminus : isNumberBlank (asciiDigit '-') = false ∧ asciiDigit '-' = '-' := by decide
    rw [ofChars?, normalized_eq_map (List.forall_mem_cons.2 ⟨hminus.1, hblank hn⟩), List.map_cons,
      hminus.2]
    exact hread hn true

/-- The decimal text of an integer is a numeral. -/
theorem numeral_toString (i : Int) : Numeral (toString i).toList := by
  have hdigits : Unsigned isDigit (Nat.toDigits 10 i.natAbs) :=
    .whole Nat.toDigits_ne_nil fun c hc => Option.isSome_iff_exists.2
      ⟨_, digitValue?_of_isDigit (isDigit_of_mem_toDigits hc)⟩
  rw [toList_toString]
  split
  · exact .minus hdigits
  · exact .plain hdigits

theorem point_not_mem_toString (i : Int) : '.' ∉ (toString i).toList := by
  intro hmem
  rcases mem_toString hmem with h | h <;> cases h

end Questionnaire.Binary64
