import Questionnaire.Document.Json.Printer
import Questionnaire.Document.Json.Reader
import Questionnaire.Proofs.Number.Whole

/-!
# JSON strings and numbers read back

A string is read back character by character: whichever way a character is written, as itself, by a
short escape, by the escape of one UTF-16 unit or by those of its two surrogates, one step of the
reader takes it off and goes on behind it (`stringWithin_stringChar`). The induction over the
characters then needs no fuel beyond their number, and what stands behind the closing quote does not
matter (`string?_string`).

Digits do not say where they end, so an integer is read back only in front of something that no
number goes on with (`EndsNumber`); there the reader takes all its digits, no fraction and no
exponent (`scalar?_int`).
-/

namespace Questionnaire.Json

open Questionnaire.Text

/-! ## Hexadecimal digits -/

theorem hexValue?_digitChar {d : Nat} (h : d < 16) : hexValue? (Nat.digitChar d) = some d := by
  have hall : ∀ d < 16, hexValue? (Nat.digitChar d) = some d := by decide
  exact hall d h

theorem hexNumber?_append_digit (cs : List Char) (c : Char) :
    hexNumber? (cs ++ [c]) =
      (hexNumber? cs).bind fun n => (hexValue? c).map fun d => 16 * n + d := by
  simp [hexNumber?, List.foldl_append]

theorem hexNumber?_toDigits (n : Nat) : hexNumber? (Nat.toDigits 16 n) = some n := by
  induction n using Nat.strongRecOn with
  | ind n ih =>
    by_cases h : n < 16
    · rw [Nat.toDigits_of_lt_base h]
      simp [hexNumber?, hexValue?_digitChar h]
    · have hdigit : n % 16 < 16 := Nat.mod_lt _ (by decide)
      rw [Nat.toDigits_of_base_le (by decide) (by omega), hexNumber?_append_digit,
        ih (n / 16) (by omega), hexValue?_digitChar hdigit]
      simp
      omega

/-- Leading zeros do not count. -/
theorem hexNumber?_zeros (cs : List Char) :
    ∀ k, hexNumber? (List.replicate k '0' ++ cs) = hexNumber? cs
  | 0 => rfl
  | k + 1 => hexNumber?_zeros cs k

theorem hexNumber?_hexDigits (width n : Nat) : hexNumber? (hexDigits width n) = some n := by
  rw [hexDigits, hexNumber?_zeros, hexNumber?_toDigits]

/-- A UTF-16 unit is written with four digits, from which it is read back. -/
theorem exists_hexDigits {n : Nat} (h : n < 0x10000) :
    ∃ a b d e, hexDigits 4 n = [a, b, d, e] ∧ hexNumber? [a, b, d, e] = some n := by
  have hlength : (hexDigits 4 n).length = 4 := by
    have hfits : (Nat.toDigits 16 n).length ≤ 4 :=
      (Nat.length_toDigits_le_iff (by decide) (by decide)).2 h
    simp only [hexDigits, List.length_append, List.length_replicate]
    omega
  have hnumber := hexNumber?_hexDigits 4 n
  match hdigits : hexDigits 4 n, hlength with
  | [a, b, d, e], _ => exact ⟨a, b, d, e, rfl, hdigits ▸ hnumber⟩

/-! ## Strings -/


theorem stringWithin_unitEscape {n : Nat} (h : n < 0xD800 ∨ 0xE000 ≤ n) (hn : n < 0x10000)
    (fuel : Nat) (r : List Char) :
    stringWithin (fuel + 1) (unitEscape n ++ r) =
      (stringWithin fuel r).map fun p => (Char.ofNat n :: p.1, p.2) := by
  obtain ⟨a, b, d, e, hdigits, hnumber⟩ := exists_hexDigits hn
  simp [unitEscape, hdigits, stringWithin, backslash, doubleQuote, hnumber, if_pos h]
  cases stringWithin fuel r <;> rfl

theorem stringWithin_surrogates {high low : Nat} {c : Char} (hhigh : 0xD800 ≤ high ∧ high < 0xDC00)
    (hlow : low < 0x10000) (hpair : surrogatePair? high low = some c) (fuel : Nat)
    (r : List Char) :
    stringWithin (fuel + 1) (unitEscape high ++ (unitEscape low ++ r)) =
      (stringWithin fuel r).map fun p => (c :: p.1, p.2) := by
  obtain ⟨a, b, d, e, hdigits, hnumber⟩ := exists_hexDigits (n := high) (by omega)
  obtain ⟨a', b', d', e', hdigits', hnumber'⟩ := exists_hexDigits hlow
  have hnot : ¬(high < 0xD800 ∨ 0xE000 ≤ high) := by omega
  simp [unitEscape, hdigits, hdigits', stringWithin, backslash, doubleQuote, hnumber, hnumber',
    if_neg hnot, hpair]
  cases stringWithin fuel r <;> rfl

/-- A code point above the first plane is read back from its surrogates. -/
theorem surrogatePair?_of_le {n : Nat} (hn : 0x10000 ≤ n) (hmax : n < 0x110000) :
    surrogatePair? (0xD800 + (n - 0x10000) / 0x400) (0xDC00 + (n - 0x10000) % 0x400) =
      some (Char.ofNat n) := by
  have hhigh : 0xD800 + (n - 0x10000) / 0x400 < 0xDC00 := by omega
  have hlow : 0xDC00 + (n - 0x10000) % 0x400 < 0xE000 := by omega
  have hback : 0x10000 + (0xD800 + (n - 0x10000) / 0x400 - 0xD800) * 0x400 +
      (0xDC00 + (n - 0x10000) % 0x400 - 0xDC00) = n := by omega
  simp only [surrogatePair?, hback]
  simp [hhigh, hlow]

theorem toNat_range (c : Char) : c.toNat < 0xD800 ∨ 0xE000 ≤ c.toNat ∧ c.toNat < 0x110000 := by
  have := c.valid
  simp only [UInt32.isValidChar, Nat.isValidChar] at this
  simp only [Char.toNat]
  omega

/-- A short escape is read as the character that it stands for. -/
theorem stringWithin_shortEscape {x c : Char} (h : shortEscape? x = some c) (hx : x ≠ 'u')
    (fuel : Nat) (r : List Char) :
    stringWithin (fuel + 1) (backslash :: x :: r) =
      (stringWithin fuel r).map fun p => (c :: p.1, p.2) := by
  simp [stringWithin, backslash, doubleQuote, h, hx]
  cases stringWithin fuel r <;> rfl

theorem stringWithin_stringChar (c : Char) (fuel : Nat) (r : List Char) :
    stringWithin (fuel + 1) (stringChar c ++ r) =
      (stringWithin fuel r).map fun p => (c :: p.1, p.2) := by
  have hrange := toNat_range c
  have hself : Char.ofNat c.toNat = c := Char.ofNat_toNat c
  have hshort (x d : Char) (hd : c = d) (h : shortEscape? x = some d) (hx : x ≠ 'u') :
      stringWithin (fuel + 1) ([backslash, x] ++ r) =
        (stringWithin fuel r).map fun p => (c :: p.1, p.2) :=
    hd ▸ stringWithin_shortEscape h hx fuel r
  unfold stringChar
  dsimp only
  split
  · next h =>
    rcases Bool.or_eq_true_iff.1 h with h | h
    · obtain rfl := beq_iff_eq.1 h
      exact hshort _ _ rfl rfl (by decide)
    · obtain rfl := beq_iff_eq.1 h
      exact hshort _ _ rfl rfl (by decide)
  next hplain =>
  split
  · next h => exact hshort _ _ (beq_iff_eq.1 h) rfl (by decide)
  split
  · next h => exact hshort _ _ (beq_iff_eq.1 h) rfl (by decide)
  split
  · next h => exact hshort _ _ (beq_iff_eq.1 h) rfl (by decide)
  split
  · next h =>
    have hc : c = '\x08' := by rw [← hself, beq_iff_eq.1 h]
    exact hshort _ _ hc rfl (by decide)
  split
  · next h =>
    have hc : c = '\x0c' := by rw [← hself, beq_iff_eq.1 h]
    exact hshort _ _ hc rfl (by decide)
  split
  · next h =>
    have hlow : ¬c.toNat < 0x20 := by
      simp only [Bool.and_eq_true, decide_eq_true_eq] at h
      omega
    simp only [Bool.or_eq_true, beq_iff_eq, not_or] at hplain
    simp only [List.cons_append, List.nil_append, stringWithin]
    simp [hplain, hlow]
    cases stringWithin fuel r <;> rfl
  split
  · next h => rw [stringWithin_unitEscape (by omega) h, hself]
  · next h =>
    have hpair := surrogatePair?_of_le (n := c.toNat) (by omega) (by omega)
    rw [List.append_assoc, stringWithin_surrogates (by omega) (by omega) hpair, hself]

/-- What was written between quotes is read back, whatever follows. -/
theorem stringWithin_chars (r : List Char) :
    ∀ (cs : List Char) {fuel : Nat}, cs.length < fuel →
      stringWithin fuel (cs.flatMap stringChar ++ doubleQuote :: r) = some (cs, r)
  | [], fuel + 1, _ => by simp [stringWithin]
  | c :: cs, fuel + 1, h => by
    rw [List.flatMap_cons, List.append_assoc, stringWithin_stringChar,
      stringWithin_chars r cs (by simpa using h)]
    rfl

theorem stringChar_ne_nil (c : Char) : stringChar c ≠ [] := by
  unfold stringChar
  dsimp only
  repeat' split
  all_goals exact List.cons_ne_nil _ _

theorem length_le_flatMap_stringChar (cs : List Char) :
    cs.length ≤ (cs.flatMap stringChar).length := by
  induction cs with
  | nil => exact Nat.le_refl 0
  | cons c cs ih =>
    have hchar : 0 < (stringChar c).length := List.length_pos_iff.2 (stringChar_ne_nil c)
    rw [List.flatMap_cons, List.length_append, List.length_cons]
    omega

theorem string?_string (s : String) (r : List Char) :
    string? ((string s).tail ++ r) = some (s, r) := by
  have hlength := length_le_flatMap_stringChar s.toList
  have htail : (string s).tail ++ r = s.toList.flatMap stringChar ++ doubleQuote :: r := by
    simp [string]
  rw [htail, string?, stringWithin_chars r s.toList (by
    rw [List.length_append, List.length_cons]
    omega)]
  simp


/-! ## Numbers -/

/-- What may stand behind a value: nothing that a number goes on with. -/
def EndsNumber (r : List Char) : Prop :=
  ∀ c ∈ r.head?, c.isDigit = false ∧ c ≠ '.' ∧ c ≠ 'e' ∧ c ≠ 'E'

/-- The digits of a positive number do not begin with a zero. -/
theorem exists_toDigits {n : Nat} (hn : 0 < n) : ∃ c ds, Nat.toDigits 10 n = c :: ds ∧ c ≠ '0' := by
  induction n using Nat.strongRecOn with
  | ind n ih =>
    by_cases h : n < 10
    · have hall : ∀ d < 10, 0 < d → Nat.digitChar d ≠ '0' := by decide
      exact ⟨_, [], Nat.toDigits_of_lt_base h, hall n h hn⟩
    · obtain ⟨c, ds, hds, hc⟩ := ih (n / 10) (by omega) (by omega)
      rw [Nat.toDigits_of_base_le (by decide) (by omega), hds]
      exact ⟨c, _, rfl, hc⟩

theorem digits_append {ds r : List Char} (hds : ∀ c ∈ ds, c.isDigit = true) (hr : EndsNumber r) :
    digits (ds ++ r) = (ds, r) := by
  have hdrop : r.dropWhile Char.isDigit = r := by
    cases r with
    | nil => rfl
    | cons c r => rw [List.dropWhile_cons, (hr c rfl).1]; rfl
  have htake : r.takeWhile Char.isDigit = [] := by
    cases r with
    | nil => rfl
    | cons c r => rw [List.takeWhile_cons, (hr c rfl).1]; rfl
  rw [digits, List.takeWhile_append_of_pos hds, List.dropWhile_append_of_pos hds, htake, hdrop,
    List.append_nil]

theorem fraction_of_ends {r : List Char} (hr : EndsNumber r) : fraction r = ([], r) := by
  unfold fraction
  split
  · exact absurd rfl (hr '.' rfl).2.1
  · rfl

theorem exponent_of_ends {r : List Char} (hr : EndsNumber r) : exponent r = (none, r) := by
  cases r with
  | nil => rfl
  | cons c r =>
    obtain ⟨-, -, he, hE⟩ := hr c rfl
    simp [exponent, he, hE]

/-- The digits of a number are read as the number. -/
theorem number?_toDigits (negative : Bool) (n : Nat) {r : List Char} (hr : EndsNumber r) :
    number? negative (Nat.toDigits 10 n ++ r) = some (.int (Binary64.signed negative n), r) := by
  have hdigits : ∀ c ∈ Nat.toDigits 10 n, c.isDigit = true :=
    fun _ hc => Binary64.isDigit_of_mem_toDigits hc
  have hvalue : digitsValue (Nat.toDigits 10 n) = n := by
    rw [Binary64.digitsValue_eq hdigits, Nat.ofDigitChars_ten_toDigits]
  rcases Nat.eq_zero_or_pos n with rfl | hn
  · rw [Nat.toDigits_zero] at hvalue ⊢
    simp [number?, fraction_of_ends hr, exponent_of_ends hr, hvalue]
  · have hsplit := digits_append hdigits hr
    obtain ⟨c, ds, hds, hc⟩ := exists_toDigits hn
    rw [hds] at hsplit hvalue ⊢
    rw [List.cons_append] at hsplit ⊢
    simp [number?, hc, hsplit, fraction_of_ends hr, exponent_of_ends hr, hvalue]

theorem word?_digit {c : Char} (hc : c.isDigit = true) (r : List Char) : word? (c :: r) = none := by
  let P (c : Char) : Prop := 'n' ≠ c ∧ 't' ≠ c ∧ 'f' ≠ c ∧ 'N' ≠ c ∧ 'I' ≠ c ∧ '-' ≠ c
  have hother : P c := Binary64.forall_digit (by decide) hc
  simp [word?, words, hother.1, hother.2.1, hother.2.2.1, hother.2.2.2.1, hother.2.2.2.2]

theorem word?_minus {c : Char} (hc : c.isDigit = true) (r : List Char) :
    word? ('-' :: c :: r) = none := by
  have hother : c ≠ 'I' := Binary64.forall_digit (P := fun c => c ≠ 'I') (by decide) hc
  simp [word?, words, hother.symm]

/-- An integer is read back from its text. -/
theorem scalar?_int (i : Int) {r : List Char} (hr : EndsNumber r) :
    scalar? ((toString i).toList ++ r) = some (.int i, r) := by
  have hsigned := Binary64.signed_natAbs i
  have hnumber (negative : Bool) := number?_toDigits negative i.natAbs hr
  obtain ⟨c, ds, hds⟩ := List.exists_cons_of_ne_nil (Nat.toDigits_ne_nil (n := i.natAbs) (b := 10))
  have hc : c.isDigit = true := Binary64.isDigit_of_mem_toDigits (hds ▸ List.mem_cons_self)
  have hrest : Nat.toDigits 10 i.natAbs ++ r = c :: (ds ++ r) := by rw [hds, List.cons_append]
  simp only [hrest] at hnumber
  rw [Binary64.toList_toString]
  split
  · next hneg =>
    rw [decide_eq_true hneg] at hsigned
    rw [List.cons_append, hrest, scalar?, word?_minus hc]
    simp only [hnumber, hsigned]
  · next hpos =>
    rw [decide_eq_false hpos] at hsigned
    have hminus : c ≠ '-' := Binary64.forall_digit (P := fun c => c ≠ '-') (by decide) hc
    rw [hrest, scalar?, word?_digit hc]
    · simp only [hnumber, hsigned]
    · exact fun _ heq => hminus (List.cons.inj heq).1

end Questionnaire.Json
