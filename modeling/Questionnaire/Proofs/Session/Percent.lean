import Questionnaire.Proofs.Number.Range
import Questionnaire.Session.Plan

/-!
# The percentage of an iteration

How far a battery has come is shown as the share of the iterations that are done, in percent and
rounded to an integer. The share is a binary number that is rounded when it is divided and again
when it is multiplied. A share that is no greater than one stays finite in both steps
(`Binary64.ofRatio_of_le`, `Binary64.ofRatio_eq_finite`), so the iterations up to the last one have
a percentage (`Iteration.exists_roundedPercent`).
-/

namespace Questionnaire

namespace Binary64

variable {num den : Nat} {negative : Bool}

/-- The exponent of a ratio that is at most a power of two. -/
theorem exponentOf_le {k : Nat} (hnum : num ≠ 0) (h : num ≤ den * twoTo k) :
    exponentOf num den ≤ max ((k : Int) - 52) minExponent := by
  have hlog : Nat.log2 num < Nat.log2 den + 1 + k := by
    rw [log2_lt_iff hnum, twoTo_add]
    exact Nat.lt_of_le_of_lt h (Nat.mul_lt_mul_of_pos_right (lt_twoTo_log2 den) (twoTo_pos k))
  simp only [exponentOf]
  split <;> omega

/-- A ratio that is far from too large is rounded to a finite number. -/
theorem ofRatio_eq_finite {k : Nat} (hk : k ≤ 1000) (h : num ≤ den * twoTo k) :
    ∃ m e, ofRatio negative num den = .finite negative m e := by
  by_cases hnum : num = 0
  · exact ⟨_, _, by rw [ofRatio, if_pos hnum]⟩
  have hexp := exponentOf_le hnum h
  simp only [ofRatio, if_neg hnum, maxExponent, minExponent] at hexp ⊢
  split <;> rw [if_neg (by omega)] <;> exact ⟨_, _, rfl⟩

/-- A ratio up to one is rounded to a fraction up to two. -/
theorem ofRatio_of_le (h : num ≤ den) : ∃ m t : Nat,
    ofRatio negative num den = .finite negative m (-(t : Int)) ∧ m ≤ twoTo (t + 1) := by
  by_cases hnum : num = 0
  · exact ⟨0, 1074, by rw [ofRatio, if_pos hnum]; rfl, Nat.zero_le _⟩
  have hexp := exponentOf_le (k := 0) hnum (by simpa [twoTo] using h)
  obtain ⟨u, hu⟩ : ∃ u : Nat, exponentOf num den = -((u : Int) + 1) :=
    ⟨(-(exponentOf num den) - 1).toNat, by simp only [minExponent] at hexp; omega⟩
  have hlarge : 51 ≤ u := by simp only [minExponent] at hexp; omega
  have hshifted : shifted num den (-((u : Int) + 1)) = (num * twoTo (u + 1), den) := by
    rw [shifted, if_neg (by omega), show (-(-((u : Int) + 1))).toNat = u + 1 by omega]
  have hquotient : num * twoTo (u + 1) / den ≤ twoTo (u + 1) :=
    Nat.div_le_of_le_mul (Nat.mul_le_mul_right _ h)
  have hround := roundHalfEven_le (num * twoTo (u + 1)) den
  have hdouble := twoTo_succ (u + 1)
  have hone := twoTo_pos (u + 1)
  simp only [ofRatio, if_neg hnum, hu, hshifted, maxExponent]
  split
  · refine ⟨twoTo 52, u, ?_, Nat.pow_le_pow_right (by decide) (by omega)⟩
    rw [if_neg (by omega), show -((u : Int) + 1) + 1 = -(u : Int) by omega]
  · refine ⟨roundHalfEven (num * twoTo (u + 1)) den, u + 1, ?_, by omega⟩
    rw [if_neg (by omega), Int.natCast_add, Int.natCast_one]

end Binary64

namespace Iteration

open Binary64

/-- The share of a number in one that is no smaller has a percentage, whatever their signs. -/
theorem exists_mul_hundred {a b : Int} (hb : b ≠ 0) (h : a.natAbs ≤ b.natAbs) : ∃ x s m e,
    share (.int a) (.int b) = .ok x ∧ x.mul (.ofRatio false 100 1) = .finite s m e := by
  let negative : Bool := decide (a < 0) != decide (b < 0)
  have hden : max b.natAbs 1 = b.natAbs := by omega
  obtain ⟨m, t, hx, hm⟩ := @ofRatio_of_le a.natAbs b.natAbs negative h
  have hhundred : ofRatio false 100 1 = .finite false (100 * twoTo 46) (-46) := by decide +kernel
  have hnum : m * (100 * twoTo 46) ≤ twoTo (t + 46) * twoTo 8 :=
    calc m * (100 * twoTo 46) ≤ twoTo (t + 1) * twoTo 53 := Nat.mul_le_mul hm (by decide)
      _ = twoTo (t + 46) * twoTo 8 := by rw [← twoTo_add, ← twoTo_add]
  obtain ⟨m', e, hy⟩ := @ofRatio_eq_finite _ _ (negative != false) _ (by decide) hnum
  refine ⟨.finite negative m (-(t : Int)), negative != false, m', e, ?_, ?_⟩
  · rw [share, if_neg hb, quotient, hden, hx]
  · rw [hhundred, mul, ofScaled, if_neg (by omega),
      show (-(-(t : Int) + -46)).toNat = t + 46 by omega, hy]

/-- An iteration whose number is no greater than their total has a percentage. -/
theorem exists_roundedPercent {i : Iteration} {k n : Int} (hindex : i.index = .int k)
    (htotal : i.total = .int n) (hn : n ≠ 0) (h : (k + 1).natAbs ≤ n.natAbs) :
    ∃ p, i.roundedPercent = .ok p := by
  obtain ⟨x, s, m, e, hshare, hmul⟩ := exists_mul_hundred hn h
  have hnumber : i.number = .ok (.int (k + 1)) := by rw [number, hindex]; rfl
  have hpercent : i.percent = .ok (.finite s m e) := by
    rw [percent, hnumber, htotal]
    show (share (.int (k + 1)) (.int n)).bind _ = _
    rw [hshare, ← hmul]
    rfl
  refine ⟨signed s (roundHalfEven (shifted m 1 (-e)).1 (shifted m 1 (-e)).2), ?_⟩
  rw [roundedPercent, hpercent]
  rfl

end Iteration

end Questionnaire
