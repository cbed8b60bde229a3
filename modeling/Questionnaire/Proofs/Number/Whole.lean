import Mathlib.Data.List.TakeWhile
import Questionnaire.Number.Reading

/-!
# Whole numbers

An integer up to `2 ^ 53` is a binary number itself, so rounding it changes nothing
(`toInt?_ofRatio`), and neither does reading it from its decimal digits
(`toInt?_ofChars?_toString`). Larger integers may be rounded.
-/

namespace Questionnaire

open Text

namespace Binary64

variable {n : Nat} {negative : Bool}

/-! ## Powers of two -/

theorem twoTo_add (m n : Nat) : twoTo (m + n) = twoTo m * twoTo n := Nat.pow_add 2 m n

theorem log2_lt_iff {k : Nat} (hn : n ≠ 0) : Nat.log2 n < k ↔ n < twoTo k := Nat.log2_lt hn

theorem twoTo_log2_le (hn : n ≠ 0) : twoTo (Nat.log2 n) ≤ n := Nat.log2_self_le hn

theorem lt_twoTo_log2 (n : Nat) : n < twoTo (Nat.log2 n + 1) := Nat.lt_log2_self

/-! ## Integers as ratios -/

@[simp] theorem roundHalfEven_one (n : Nat) : roundHalfEven n 1 = n := by
  simp [roundHalfEven, Nat.mod_one]

theorem shifted_of_nonpos {e : Int} (he : e ≤ 0) :
    shifted n 1 e = (n * twoTo (-e).toNat, 1) := by
  unfold shifted
  split
  · obtain rfl : e = 0 := by omega
    simp [twoTo]
  · rfl

/-- Below `2 ^ 53` the exponent is the one that fills the significand. -/
theorem exponentOf_one (hn : n ≠ 0) (hlt : n < twoTo 53) :
    exponentOf n 1 = (Nat.log2 n : Int) - 52 := by
  have hlog : Nat.log2 n < 53 := (log2_lt_iff hn).2 hlt
  have hfull : ¬n * twoTo (53 - Nat.log2 n) < twoTo 53 := by
    have hpow : twoTo (Nat.log2 n) * twoTo (53 - Nat.log2 n) = twoTo 53 := by
      rw [← twoTo_add]
      congr 1
      omega
    have := Nat.mul_le_mul_right (twoTo (53 - Nat.log2 n)) (twoTo_log2_le hn)
    omega
  have he : (Nat.log2 n : Int) - (Nat.log2 1 : Int) - 53 = (Nat.log2 n : Int) - 53 := by
    rw [show Nat.log2 1 = 0 by decide]
    omega
  have hneg : (-((Nat.log2 n : Int) - 53)).toNat = 53 - Nat.log2 n := by omega
  simp only [exponentOf, he, shifted_of_nonpos (by omega : (Nat.log2 n : Int) - 53 ≤ 0), hneg,
    Nat.div_one, if_neg hfull, minExponent]
  omega

/-- The significand of an integer below `2 ^ 53` is the integer, shifted to fill it. -/
theorem ofRatio_one (hn : n ≠ 0) (hlt : n < twoTo 53) : ofRatio negative n 1 =
    .finite negative (n * twoTo (52 - Nat.log2 n)) ((Nat.log2 n : Int) - 52) := by
  have hlog : Nat.log2 n < 53 := (log2_lt_iff hn).2 hlt
  have hshort : n * twoTo (52 - Nat.log2 n) ≠ twoTo 53 := by
    have hpow : twoTo (Nat.log2 n + 1) * twoTo (52 - Nat.log2 n) = twoTo 53 := by
      rw [← twoTo_add]
      congr 1
      omega
    have := Nat.mul_lt_mul_of_pos_right (lt_twoTo_log2 n) (twoTo_pos (52 - Nat.log2 n))
    omega
  have hneg : (-((Nat.log2 n : Int) - 52)).toNat = 52 - Nat.log2 n := by omega
  have hmax : ¬maxExponent < (Nat.log2 n : Int) - 52 := by
    simp only [maxExponent]
    omega
  simp only [ofRatio, if_neg hn, exponentOf_one hn hlt,
    shifted_of_nonpos (by omega : (Nat.log2 n : Int) - 52 ≤ 0), hneg, roundHalfEven_one,
    if_neg hshort, if_neg hmax]

/-- An integer up to `2 ^ 53` is not rounded. -/
theorem toInt?_ofRatio (hn : n ≤ twoTo 53) :
    (ofRatio negative n 1).toInt? = some (signed negative n) := by
  rcases Nat.eq_zero_or_pos n with rfl | hpos
  · cases negative <;> decide +kernel
  rcases Nat.lt_or_eq_of_le hn with hlt | rfl
  · have hlog : Nat.log2 n < 53 := (log2_lt_iff (by omega)).2 hlt
    rw [ofRatio_one (by omega) hlt, toInt?]
    split
    · have hexp : Nat.log2 n = 52 := by omega
      simp [hexp, twoTo]
    · have hneg : (-((Nat.log2 n : Int) - 52)).toNat = 52 - Nat.log2 n := by omega
      simp [hneg, Nat.mul_div_cancel n (twoTo_pos (52 - Nat.log2 n))]
  · cases negative <;> decide +kernel

/-- Without a power of ten a decimal number is an integer. -/
theorem ofDecimal_zero (negative : Bool) (n : Nat) :
    ofDecimal negative n 0 = ofRatio negative n 1 := by
  have hsmall : ¬(Nat.log2 n : Int) / 3 + 0 < -500 - (Nat.log2 n : Int) := by omega
  unfold ofDecimal
  dsimp only
  split
  · next h =>
    have hzero : n = 0 := by
      simp only [Bool.or_eq_true, decide_eq_true_eq] at h
      exact h.resolve_right hsmall
    rw [hzero, ofRatio, if_pos rfl]
  · simp [tenTo]

theorem toInt?_ofDecimal (hn : n ≤ twoTo 53) :
    (ofDecimal negative n 0).toInt? = some (signed negative n) := by
  rw [ofDecimal_zero, toInt?_ofRatio hn]

/-! ## Digits -/

variable {cs : List Char}

/-- What is true of the ten ASCII digits. -/
theorem forall_digit {P : Char → Prop} (h : ∀ k < 10, P (Char.ofNat (48 + k))) {c : Char}
    (hc : c.isDigit = true) : P c := by
  have hrange : 48 ≤ c.toNat ∧ c.toNat ≤ 57 := Char.isDigit_iff_toNat.1 hc
  have hk := h (c.toNat - 48) (by omega)
  rwa [Nat.add_sub_cancel' hrange.1, Char.ofNat_toNat] at hk

theorem digitValue?_of_isDigit {c : Char} (h : c.isDigit = true) :
    digitValue? c = some (c.toNat - 48) :=
  forall_digit (P := fun c => digitValue? c = some (c.toNat - 48)) (by decide) h

theorem digitsValue_eq (h : ∀ c ∈ cs, c.isDigit = true) :
    digitsValue cs = Nat.ofDigitChars 10 cs 0 := by
  have hstep : ∀ (cs : List Char) (n : Nat), (∀ c ∈ cs, c.isDigit = true) →
      cs.foldl (fun n c => 10 * n + (digitValue? c).getD 0) n = Nat.ofDigitChars 10 cs n := by
    intro cs
    induction cs with
    | nil => exact fun _ _ => rfl
    | cons c cs ih =>
      intro n h
      rw [List.foldl_cons, Nat.ofDigitChars_cons, digitValue?_of_isDigit (h c (.head _))]
      exact ih _ fun d hd => h d (.tail _ hd)
  exact hstep cs 0 h

theorem dropWhile_eq_self {p : Char → Bool} (h : ∀ c ∈ cs, p c = false) : cs.dropWhile p = cs := by
  cases cs with
  | nil => rfl
  | cons c r => rw [List.dropWhile_cons, h c (.head _)]; rfl

/-- Where nothing is blank, only digits of other scripts are written anew. -/
theorem normalized_eq_map (h : ∀ c ∈ cs, isNumberBlank (asciiDigit c) = false) :
    normalized cs = cs.map asciiDigit := by
  have hmap : ∀ c ∈ cs.map asciiDigit, isNumberBlank c = false := List.forall_mem_map.2 h
  rw [normalized, dropWhile_eq_self hmap,
    dropWhile_eq_self fun c hc => hmap c (List.mem_reverse.1 hc), List.reverse_reverse]

theorem normalized_eq_self (h : ∀ c ∈ cs, asciiDigit c = c ∧ isNumberBlank c = false) :
    normalized cs = cs := by
  rw [normalized_eq_map fun c hc => by rw [(h c hc).1, (h c hc).2],
    List.map_congr_left fun c hc => (h c hc).1, List.map_id']

/-- A sign is neither a digit nor a point. -/
theorem splitSign_eq_self (h : ∀ c ∈ cs, c.isDigit = true ∨ c = '.') :
    splitSign cs = (false, cs) := by
  unfold splitSign
  split
  · exact absurd (h '-' (.head _)) (by decide)
  · exact absurd (h '+' (.head _)) (by decide)
  · rfl

theorem dropSeparators_eq_self (h : ∀ c ∈ cs, c ≠ '_') (afterDigit : Bool) :
    dropSeparators afterDigit cs = some cs := by
  induction cs generalizing afterDigit with
  | nil => rfl
  | cons c r ih =>
    have hc := h c (.head _)
    have hr := fun after => ih (fun d hd => h d (.tail _ hd)) after
    unfold dropSeparators
    split
    · next heq => cases heq
    · next heq => cases heq; exact absurd rfl hc
    · next heq => cases heq; exact absurd rfl hc
    · next heq => cases heq; rw [hr]; rfl

/-- Digits and points are none of the words, and no underscore is among them. -/
theorem unsigned?_eq_decimal? (h : ∀ c ∈ cs, c.isDigit = true ∨ c = '.') (hne : cs ≠ []) :
    unsigned? negative cs = decimal? negative cs := by
  have hall {P : Char → Prop} (hdigit : ∀ k < 10, P (Char.ofNat (48 + k))) (hpoint : P '.') :
      ∀ c ∈ cs, P c := by
    intro c hc
    rcases h c hc with hc | rfl
    · exact forall_digit hdigit hc
    · exact hpoint
  have hword (w : String) (x : Char) (hw : w.toList.head? = some x) (hx : x.isAlpha = true) :
      (String.ofList (cs.map Char.toLower) == w) = false := by
    rw [beq_eq_false_iff_ne]
    rintro rfl
    obtain ⟨c, r, rfl⟩ := List.exists_cons_of_ne_nil hne
    have hc : c.toLower.isAlpha = false :=
      hall (P := fun c => c.toLower.isAlpha = false) (by decide) (by decide) c (.head _)
    rw [String.toList_ofList, List.map_cons, List.head?_cons] at hw
    cases hw
    rw [hc] at hx
    cases hx
  have hunderscore : ∀ c ∈ cs, c ≠ '_' := hall (by decide) (by decide)
  simp only [unsigned?, hword "inf" 'i' rfl rfl, hword "infinity" 'i' rfl rfl,
    hword "nan" 'n' rfl rfl, dropSeparators_eq_self hunderscore, Option.bind_some,
    Bool.or_self, Bool.false_eq_true, if_false]

/-- A run of digits is read as the number that is nearest to their value. -/
theorem unsigned?_digits (h : ∀ c ∈ cs, c.isDigit = true) (hne : cs ≠ []) :
    unsigned? negative cs = some (ofDecimal negative (Nat.ofDigitChars 10 cs 0) 0) := by
  have htake : cs.takeWhile Char.isDigit = cs := List.takeWhile_eq_self_iff.2 h
  have hdrop : cs.dropWhile Char.isDigit = [] := List.dropWhile_eq_nil_iff.2 h
  rw [unsigned?_eq_decimal? (fun c hc => .inl (h c hc)) hne, decimal?, htake, hdrop]
  simp [hne, exponentPart?, digitsValue_eq h]

/-! ## The decimal text of an integer -/

theorem toList_toString (i : Int) : (toString i).toList =
    if i < 0 then '-' :: Nat.toDigits 10 i.natAbs else Nat.toDigits 10 i.natAbs := by
  have hrepr : toString i = if 0 ≤ i then i.toNat.repr else "-" ++ (-i).toNat.repr :=
    Int.repr_eq_if
  rcases Int.lt_or_le i 0 with hneg | hpos
  · have habs : (-i).toNat = i.natAbs := by omega
    rw [hrepr, if_neg (by omega), if_pos hneg, habs, Nat.repr_eq_ofList_toDigits]
    simp
  · have habs : i.toNat = i.natAbs := by omega
    rw [hrepr, if_pos hpos, if_neg (by omega), habs, Nat.repr_eq_ofList_toDigits,
      String.toList_ofList]

theorem isDigit_of_mem_toDigits {c : Char} (hc : c ∈ Nat.toDigits 10 n) : c.isDigit = true :=
  Nat.isDigit_of_mem_toDigits (by decide) (by decide) hc

theorem mem_toString {i : Int} {c : Char} (hc : c ∈ (toString i).toList) :
    c = '-' ∨ c.isDigit = true := by
  rw [toList_toString] at hc
  split at hc
  · exact (List.mem_cons.1 hc).imp_right isDigit_of_mem_toDigits
  · exact .inr (isDigit_of_mem_toDigits hc)

/-- The decimal text of an integer is its sign and its digits. -/
theorem splitSign_toString (i : Int) :
    splitSign (toString i).toList = (decide (i < 0), Nat.toDigits 10 i.natAbs) := by
  rw [toList_toString]
  split
  · next hneg => rw [decide_eq_true hneg, splitSign]
  · next hpos =>
    rw [decide_eq_false hpos]
    exact splitSign_eq_self fun c hc => .inl (isDigit_of_mem_toDigits hc)

theorem signed_natAbs (i : Int) : signed (decide (i < 0)) i.natAbs = i := by
  unfold signed
  split
  · next hneg => simp at hneg; omega
  · next hpos => simp at hpos; omega

/-- Different integers have different decimal texts. -/
theorem toString_injective : Function.Injective (toString : Int → String) := by
  intro i j h
  have hsplit := splitSign_toString i
  rw [h, splitSign_toString j] at hsplit
  obtain ⟨hsign, hdigits⟩ := Prod.mk.inj hsplit
  have habs : j.natAbs = i.natAbs := by
    rw [← Nat.ofDigitChars_ten_toDigits (n := j.natAbs), hdigits, Nat.ofDigitChars_ten_toDigits]
  rw [← signed_natAbs i, ← signed_natAbs j, hsign, habs]

/-- The decimal text of an integer is read as the number nearest to it. -/
theorem ofChars?_toString (i : Int) :
    ofChars? (toString i).toList = some (ofDecimal (decide (i < 0)) i.natAbs 0) := by
  have hplain : ∀ c ∈ (toString i).toList, asciiDigit c = c ∧ isNumberBlank c = false := by
    intro c hc
    rcases mem_toString hc with rfl | hc
    · decide
    · exact forall_digit (P := fun c => asciiDigit c = c ∧ isNumberBlank c = false) (by decide) hc
  rw [ofChars?, normalized_eq_self hplain, splitSign_toString]
  dsimp only
  rw [unsigned?_digits (fun _ hc => isDigit_of_mem_toDigits hc) Nat.toDigits_ne_nil,
    Nat.ofDigitChars_ten_toDigits]

/-- The decimal text of an integer up to `2 ^ 53` is read as the integer. -/
theorem toInt?_ofChars?_toString {i : Int} (hi : i.natAbs ≤ twoTo 53) :
    ∃ x, ofChars? (toString i).toList = some x ∧ x.toInt? = some i := by
  refine ⟨_, ofChars?_toString i, ?_⟩
  rw [toInt?_ofDecimal hi, signed_natAbs]

end Binary64

end Questionnaire
