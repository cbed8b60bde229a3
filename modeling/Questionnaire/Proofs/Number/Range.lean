import Questionnaire.Proofs.Number.Whole

/-!
# The range of binary numbers

From `2 ^ 53` on an integer is rounded to 53 binary digits (`exponentOf_one_of_large`). The greatest
finite number is `(2 ^ 53 - 1) * 2 ^ 971`, and an integer has a nearest number that is finite if it
lies below the middle between that and `2 ^ 1024` (`ofInt?_isSome_iff`).
-/

namespace Questionnaire.Binary64

variable {n num den : Nat} {negative : Bool}

/-- An integer whose magnitude is rounded to a finite number. -/
def InRange (i : Int) : Prop := i.natAbs + twoTo 970 < twoTo 1024

instance (i : Int) : Decidable (InRange i) := inferInstanceAs (Decidable (_ < _))

/-! ## Rounding -/

theorem twoTo_succ (k : Nat) : twoTo (k + 1) = 2 * twoTo k := by
  rw [twoTo, Nat.pow_eq, Nat.pow_succ, Nat.mul_comm]
  rfl

theorem shifted_of_nonneg {e : Int} (he : 0 ≤ e) : shifted n 1 e = (n, twoTo e.toNat) := by
  rw [shifted, if_pos he, Nat.one_mul]

theorem roundHalfEven_le (num den : Nat) : roundHalfEven num den ≤ num / den + 1 := by
  simp only [roundHalfEven]
  split_ifs <;> omega

/-- An odd quotient is rounded up from a half on. -/
theorem roundHalfEven_eq_succ_iff (hodd : num / den % 2 = 1) :
    roundHalfEven num den = num / den + 1 ↔ den ≤ 2 * (num % den) := by
  simp only [roundHalfEven]
  split_ifs <;> omega

theorem ne_zero_of_large (hn : twoTo 53 ≤ n) : n ≠ 0 :=
  Nat.ne_of_gt (Nat.lt_of_lt_of_le (twoTo_pos 53) hn)

theorem le_log2_of_large (hn : twoTo 53 ≤ n) : 53 ≤ Nat.log2 n :=
  Nat.not_lt.1 ((not_congr (log2_lt_iff (ne_zero_of_large hn))).2 (Nat.not_lt.2 hn))

/-- From `2 ^ 53` on the exponent drops all binary digits but 53. -/
theorem exponentOf_one_of_large (hn : twoTo 53 ≤ n) :
    exponentOf n 1 = (Nat.log2 n : Int) - 52 := by
  have hlog := le_log2_of_large hn
  have he : (Nat.log2 n : Int) - (Nat.log2 1 : Int) - 53 = ((Nat.log2 n - 53 : Nat) : Int) := by
    rw [show Nat.log2 1 = 0 by decide]
    omega
  have hfull : ¬n / twoTo (Nat.log2 n - 53) < twoTo 53 := by
    rw [Nat.div_lt_iff_lt_mul (twoTo_pos _), ← twoTo_add, Nat.add_sub_cancel' hlog]
    exact Nat.not_lt.2 (twoTo_log2_le (ne_zero_of_large hn))
  simp only [exponentOf, he, shifted_of_nonneg (Int.natCast_nonneg _), Int.toNat_natCast,
    if_neg hfull, minExponent]
  omega

/-- An integer from `2 ^ 53` on keeps 53 binary digits and is infinite if its exponent is too
large, or the greatest and its digits are rounded up to a power of two. -/
theorem ofRatio_one_of_large (hn : twoTo 53 ≤ n) : ofRatio negative n 1 = .infinite negative ↔
    1024 ≤ Nat.log2 n ∨
      Nat.log2 n = 1023 ∧ roundHalfEven n (twoTo (Nat.log2 n - 52)) = twoTo 53 := by
  have hlog := le_log2_of_large hn
  have hexp : ((Nat.log2 n : Int) - 52).toNat = Nat.log2 n - 52 := by omega
  simp only [ofRatio, if_neg (ne_zero_of_large hn), exponentOf_one_of_large hn,
    shifted_of_nonneg (by omega : 0 ≤ (Nat.log2 n : Int) - 52), hexp]
  by_cases hup : roundHalfEven n (twoTo (Nat.log2 n - 52)) = twoTo 53
  · simp only [if_pos hup, maxExponent]
    split_ifs <;> simp [hup] <;> omega
  · simp only [if_neg hup, maxExponent]
    split_ifs <;> simp [hup] <;> omega

/-- With 1024 binary digits an integer is rounded up to a power of two from the middle between the
greatest finite number and `2 ^ 1024` on. -/
theorem roundHalfEven_eq_twoTo_iff (hn : n < twoTo 1024) :
    roundHalfEven n (twoTo 971) = twoTo 53 ↔ twoTo 1024 ≤ n + twoTo 970 := by
  have hhalf : twoTo 971 = 2 * twoTo 970 := twoTo_succ 970
  have hwhole : twoTo 1024 = twoTo 53 * twoTo 971 := twoTo_add 53 971
  have hquotient : n / twoTo 971 < twoTo 53 :=
    (Nat.div_lt_iff_lt_mul (twoTo_pos _)).2 (hwhole ▸ hn)
  have hsum := Nat.div_add_mod n (twoTo 971)
  have hrest := Nat.mod_lt n (twoTo_pos 971)
  have hle := roundHalfEven_le n (twoTo 971)
  have hdigits : twoTo 53 = 9007199254740992 := rfl
  rw [hdigits] at hquotient hwhole ⊢
  by_cases hmax : n / twoTo 971 = 9007199254740991
  · have hodd : n / twoTo 971 % 2 = 1 := by omega
    have hsucc := roundHalfEven_eq_succ_iff hodd
    rw [hmax] at hsucc hsum
    rw [hsucc]
    omega
  · have hbelow : twoTo 971 * (n / twoTo 971) ≤ twoTo 971 * 9007199254740990 :=
      Nat.mul_le_mul_left _ (by omega)
    omega

/-- Which integers have a nearest number that is finite. -/
theorem ofRatio_one_eq_infinite_iff (n : Nat) :
    ofRatio negative n 1 = .infinite negative ↔ twoTo 1024 ≤ n + twoTo 970 := by
  have hsmall : twoTo 53 + twoTo 970 < twoTo 1024 := by decide +kernel
  rcases Nat.lt_or_ge n (twoTo 53) with hlt | hge
  · have hbelow : ¬twoTo 1024 ≤ n + twoTo 970 := by omega
    rcases Nat.eq_zero_or_pos n with rfl | hpos
    · simpa [ofRatio] using Nat.lt_of_add_left_lt hsmall
    · simp [ofRatio_one (by omega) hlt, hbelow]
  rw [ofRatio_one_of_large hge]
  have h1023 : Nat.log2 n < 1023 ↔ n < twoTo 1023 := log2_lt_iff (ne_zero_of_large hge)
  have h1024 : Nat.log2 n < 1024 ↔ n < twoTo 1024 := log2_lt_iff (ne_zero_of_large hge)
  have hhalf : twoTo 1024 = 2 * twoTo 1023 := twoTo_succ 1023
  have hquarter : twoTo 970 < twoTo 1023 := by decide +kernel
  rcases Nat.lt_or_ge n (twoTo 1024) with hbelow | habove
  · rcases Nat.lt_or_ge n (twoTo 1023) with hlow | htop
    · omega
    · have hlog : Nat.log2 n = 1023 := by omega
      rw [hlog, ← roundHalfEven_eq_twoTo_iff hbelow]
      simp
  · omega

theorem sign_of_ofRatio_eq_infinite {s : Bool} (h : ofRatio negative num den = .infinite s) :
    s = negative := by
  revert h
  simp only [ofRatio]
  split_ifs <;> simp +contextual

theorem ofInt?_isSome_iff (i : Int) : (ofInt? i).isSome = true ↔ InRange i := by
  rw [ofInt?, InRange]
  split
  · next s hs =>
    obtain rfl := sign_of_ofRatio_eq_infinite hs
    have habove := (ofRatio_one_eq_infinite_iff i.natAbs).1 hs
    exact iff_of_false Bool.false_ne_true (Nat.not_lt.2 habove)
  · next hfinite =>
    have hbelow : ¬twoTo 1024 ≤ i.natAbs + twoTo 970 :=
      fun h => hfinite _ ((ofRatio_one_eq_infinite_iff i.natAbs).2 h)
    exact iff_of_true rfl (Nat.not_le.1 hbelow)

/-- The least integer out of range, and the one in front of it. -/
example : InRange (twoTo 1024 - twoTo 970 - 1) ∧ ¬InRange (twoTo 1024 - twoTo 970) := by
  decide +kernel

end Questionnaire.Binary64
