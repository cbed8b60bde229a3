import Questionnaire.Proofs.Number.Range

/-!
# Integers that are binary numbers

An integer is a binary number itself if it has at most 53 binary digits, followed by any number of
zeros (`Representable`). Every integer in range is rounded to one that is, and rounding that one
again leads to the same number (`exists_rounded`).
-/

namespace Questionnaire.Binary64

variable {n m k den : Nat} {negative : Bool} {i : Int} {x : Binary64}

/-- A magnitude of at most 53 binary digits, followed by zeros. -/
def Short (n : Nat) : Prop := ∃ m k, m < twoTo 53 ∧ n = m * twoTo k

/-- An integer that is a finite binary number. -/
def Representable (i : Int) : Prop := InRange i ∧ Short i.natAbs

/-! ## Rounding to multiples -/

theorem roundHalfEven_mul (hden : 0 < den) (m : Nat) : roundHalfEven (m * den) den = m := by
  simp only [roundHalfEven, Nat.mul_mod_left, Nat.mul_div_cancel m hden]
  split_ifs <;> omega

theorem roundHalfEven_mul_eq_iff (hden : 0 < den) : roundHalfEven n den * den = n ↔ den ∣ n := by
  constructor
  · exact fun h => ⟨_, by rw [Nat.mul_comm, h]⟩
  · rintro ⟨m, rfl⟩
    rw [Nat.mul_comm den m, roundHalfEven_mul hden]

theorem le_roundHalfEven (n den : Nat) : n / den ≤ roundHalfEven n den := by
  simp only [roundHalfEven]
  split_ifs <;> omega

/-! ## Rounding integers -/

theorem log2_mul_twoTo (hlow : twoTo 52 ≤ m) (hhigh : m < twoTo 53) (k : Nat) :
    Nat.log2 (m * twoTo k) = 52 + k := by
  have hlower : twoTo (52 + k) ≤ m * twoTo k := by
    rw [twoTo_add]
    exact Nat.mul_le_mul_right _ hlow
  have hupper : m * twoTo k < twoTo (53 + k) := by
    rw [twoTo_add]
    exact Nat.mul_lt_mul_of_pos_right hhigh (twoTo_pos k)
  have hne : m * twoTo k ≠ 0 := Nat.ne_of_gt (Nat.lt_of_lt_of_le (twoTo_pos _) hlower)
  have hnot := (not_congr (log2_lt_iff (k := 52 + k) hne)).2 (Nat.not_lt.2 hlower)
  have hlt := (log2_lt_iff (k := 53 + k) hne).2 hupper
  omega

/-- An integer whose 53 leading binary digits are followed by zeros only is not rounded. -/
theorem ofRatio_one_of_normal (hlow : twoTo 52 ≤ m) (hhigh : m < twoTo 53) (hk : 1 ≤ k) :
    ofRatio negative (m * twoTo k) 1 =
      if 971 < k then .infinite negative else .finite negative m k := by
  have hlarge : twoTo 53 ≤ m * twoTo k := by
    rw [show 53 = 52 + 1 from rfl, twoTo_add]
    exact Nat.mul_le_mul hlow (Nat.pow_le_pow_right (by decide) hk)
  have hexp : exponentOf (m * twoTo k) 1 = k := by
    rw [exponentOf_one_of_large hlarge, log2_mul_twoTo hlow hhigh]
    omega
  have hdigits : ¬m = twoTo 53 := Nat.ne_of_lt hhigh
  have hmax : maxExponent < (k : Int) ↔ 971 < k := by
    rw [maxExponent]
    omega
  simp only [ofRatio, if_neg (ne_zero_of_large hlarge), hexp,
    shifted_of_nonneg (Int.natCast_nonneg k), Int.toNat_natCast, roundHalfEven_mul (twoTo_pos k),
    if_neg hdigits, hmax]

/-- From `2 ^ 53` on an integer is rounded to 53 binary digits with zeros behind them, and the
outcome is not rounded again. -/
theorem exists_rounded_of_large (negative : Bool) (hn : twoTo 53 ≤ n) :
    ∃ m k, twoTo 52 ≤ m ∧ m < twoTo 53 ∧ 1 ≤ k ∧
      m * twoTo k = roundHalfEven n (twoTo (Nat.log2 n - 52)) * twoTo (Nat.log2 n - 52) ∧
      ofRatio negative n 1 = if 971 < k then .infinite negative else .finite negative m k := by
  have hlog := le_log2_of_large hn
  have hexp : ((Nat.log2 n : Int) - 52).toNat = Nat.log2 n - 52 := by omega
  have hquotient : twoTo 52 ≤ n / twoTo (Nat.log2 n - 52) := by
    rw [Nat.le_div_iff_mul_le (twoTo_pos _), ← twoTo_add, Nat.add_sub_cancel' (by omega)]
    exact twoTo_log2_le (ne_zero_of_large hn)
  have hsmall : n / twoTo (Nat.log2 n - 52) < twoTo 53 := by
    rw [Nat.div_lt_iff_lt_mul (twoTo_pos _), ← twoTo_add,
      show 53 + (Nat.log2 n - 52) = Nat.log2 n + 1 by omega]
    exact lt_twoTo_log2 n
  have hlow := Nat.le_trans hquotient (le_roundHalfEven n (twoTo (Nat.log2 n - 52)))
  have hhigh : roundHalfEven n (twoTo (Nat.log2 n - 52)) ≤ twoTo 53 :=
    Nat.le_trans (roundHalfEven_le _ _) hsmall
  have hpositive : 0 ≤ (Nat.log2 n : Int) - 52 := by omega
  by_cases hup : roundHalfEven n (twoTo (Nat.log2 n - 52)) = twoTo 53
  · refine ⟨twoTo 52, Nat.log2 n - 52 + 1, Nat.le_refl _, by decide, by omega, ?_, ?_⟩
    · rw [hup, ← twoTo_add, ← twoTo_add]
      congr 1
      omega
    · have hmax : maxExponent < (Nat.log2 n : Int) - 52 + 1 ↔ 971 < Nat.log2 n - 52 + 1 := by
        rw [maxExponent]
        omega
      have hcast : (Nat.log2 n : Int) - 52 + 1 = ((Nat.log2 n - 52 + 1 : Nat) : Int) := by omega
      simp only [ofRatio, if_neg (ne_zero_of_large hn), exponentOf_one_of_large hn,
        shifted_of_nonneg hpositive, hexp, if_pos hup, hmax, ← hcast]
  · refine ⟨_, Nat.log2 n - 52, hlow, Nat.lt_of_le_of_ne hhigh hup, by omega, rfl, ?_⟩
    have hmax : maxExponent < (Nat.log2 n : Int) - 52 ↔ 971 < Nat.log2 n - 52 := by
      rw [maxExponent]
      omega
    have hcast : (Nat.log2 n : Int) - 52 = ((Nat.log2 n - 52 : Nat) : Int) := by omega
    simp only [ofRatio, if_neg (ne_zero_of_large hn), exponentOf_one_of_large hn,
      shifted_of_nonneg hpositive, hexp, if_neg hup, hmax, ← hcast]

theorem short_of_small (hn : n < twoTo 53) : Short n := ⟨n, 0, hn, by simp [twoTo]⟩

/-- A magnitude from `2 ^ 53` on has at most 53 leading digits if the power of two that follows
these divides it. -/
theorem short_iff_dvd (hn : twoTo 53 ≤ n) : Short n ↔ twoTo (Nat.log2 n - 52) ∣ n := by
  have hne := ne_zero_of_large hn
  have hlog := le_log2_of_large hn
  constructor
  · rintro ⟨m, k, hm, rfl⟩
    have hlt : Nat.log2 (m * twoTo k) < 53 + k := by
      rw [log2_lt_iff hne, twoTo_add]
      exact Nat.mul_lt_mul_of_pos_right hm (twoTo_pos k)
    have hdvd : twoTo (Nat.log2 (m * twoTo k) - 52) ∣ twoTo k :=
      Nat.pow_dvd_pow 2 (by omega)
    exact Nat.dvd_trans hdvd (Nat.dvd_mul_left _ _)
  · intro hdvd
    refine ⟨n / twoTo (Nat.log2 n - 52), Nat.log2 n - 52, ?_, (Nat.div_mul_cancel hdvd).symm⟩
    rw [Nat.div_lt_iff_lt_mul (twoTo_pos _), ← twoTo_add,
      show 53 + (Nat.log2 n - 52) = Nat.log2 n + 1 by omega]
    exact lt_twoTo_log2 n

theorem toInt?_finite_of_nat (negative : Bool) (m k : Nat) :
    (Binary64.finite negative m k).toInt? = some (signed negative (m * twoTo k : Nat)) := by
  rw [toInt?, if_pos (Int.natCast_nonneg k), Int.toNat_natCast]

/-- A magnitude in range is rounded to an integer that is rounded to the same number; it is the
magnitude itself if that is short. -/
theorem exists_rounded_magnitude (hn : n + twoTo 970 < twoTo 1024) (negative : Bool) :
    ∃ m, (ofRatio negative n 1).toInt? = some (signed negative m) ∧
      ofRatio negative m 1 = ofRatio negative n 1 ∧ (m = 0 → n = 0) ∧ (m = n ↔ Short n) := by
  rcases Nat.lt_or_ge n (twoTo 53) with hsmall | hlarge
  · exact ⟨n, toInt?_ofRatio (Nat.le_of_lt hsmall), rfl, id,
      iff_of_true rfl (short_of_small hsmall)⟩
  · obtain ⟨m, k, hlow, hhigh, hk, hrounded, hx⟩ :=
      exists_rounded_of_large negative hlarge
    have hfinite : ¬971 < k := by
      intro hinfinite
      rw [if_pos hinfinite] at hx
      exact Nat.not_le.2 hn ((ofRatio_one_eq_infinite_iff n).1 hx)
    rw [if_neg hfinite] at hx
    refine ⟨m * twoTo k, ?_, ?_, ?_, ?_⟩
    · rw [hx, toInt?_finite_of_nat]
    · rw [ofRatio_one_of_normal hlow hhigh hk, if_neg hfinite, hx]
    · intro hzero
      have hpos := Nat.mul_pos (Nat.lt_of_lt_of_le (twoTo_pos 52) hlow) (twoTo_pos k)
      omega
    · rw [hrounded, roundHalfEven_mul_eq_iff (twoTo_pos _), short_iff_dvd hlarge]

theorem ofInt?_eq_some (hi : InRange i) :
    ofInt? i = some (ofRatio (decide (i < 0)) i.natAbs 1) := by
  have hsome := (ofInt?_isSome_iff i).2 hi
  unfold ofInt? at hsome ⊢
  split at hsome
  · cases hsome
  · rfl

/-- An integer in range is rounded to an integer that is rounded to the same number; it is the
integer itself if that is a binary number. -/
theorem exists_rounded (hi : InRange i) : ∃ x j, ofInt? i = some x ∧ x.toInt? = some j ∧
    ofInt? j = some x ∧ (j = i ↔ Representable i) := by
  obtain ⟨m, hint, hagain, hzero, hshort⟩ := exists_rounded_magnitude hi (decide (i < 0))
  have hsign : decide (signed (decide (i < 0)) m < 0) = decide (i < 0) := by
    rw [decide_eq_decide, signed]
    split
    · next hneg => simp at hneg; omega
    · next hpos => simp at hpos; omega
  have habs : (signed (decide (i < 0)) m).natAbs = m := by
    rw [signed]
    split <;> omega
  have hsome := ofInt?_eq_some hi
  have hj : InRange (signed (decide (i < 0)) m) := by
    rw [← ofInt?_isSome_iff, ofInt?, hsign, habs, hagain, ← ofInt?, hsome]
    rfl
  refine ⟨_, _, hsome, hint, ?_, ?_⟩
  · rw [ofInt?_eq_some hj, hsign, habs, hagain]
  · rw [Representable, and_iff_right hi, ← hshort]
    constructor
    · intro heq
      rw [← habs, heq]
    · rintro rfl
      exact signed_natAbs i

/-- An integer out of range has no finite number near it. -/
theorem ofRatio_of_not_inRange (hi : ¬InRange i) :
    ofRatio (decide (i < 0)) i.natAbs 1 = .infinite (decide (i < 0)) :=
  (ofRatio_one_eq_infinite_iff i.natAbs).2 (Nat.not_lt.1 hi)

/-- A whole number equals itself. -/
theorem eq_self_of_toInt? {j : Int} (h : x.toInt? = some j) : x.eq x = true := by
  cases x with
  | finite s m e => simp [eq, compare?, compareScaled]
  | _ => cases h

end Questionnaire.Binary64
