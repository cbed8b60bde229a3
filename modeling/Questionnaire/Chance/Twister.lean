import Questionnaire.Chance.Digest

/-!
# The Mersenne twister

The generator MT19937: 624 words of 32 bits, renewed all at once by a linear recurrence and
tempered one by one. It is seeded by an array of words, the base `2 ^ 32` digits of a number; a
text is seeded by the number whose bytes are the text followed by its SHA-512 digest.
-/

namespace Questionnaire

/-- The words of the generator and the number of those already given out. -/
structure Twister where
  words : Array UInt32
  used : Nat
  deriving Inhabited

namespace Twister

/-- The number of words. -/
def size : Nat := 624

/-- The words that a single word seeds. -/
def spread (seed : UInt32) : Array UInt32 :=
  (List.range (size - 1)).foldl (fun (w : Array UInt32) i =>
    let last := w.getD i 0
    w.push ((1812433253 : UInt32) * (last ^^^ (last >>> 30)) + UInt32.ofNat (i + 1))) #[seed]

/-- Position in the words and in the key while a key is mixed in. -/
structure Mixing where
  words : Array UInt32
  i : Nat
  j : Nat

/-- The mixing after one word was written: past the end the last word is copied to the front. -/
def Mixing.step (m : Mixing) (word : UInt32) (j : Nat) : Mixing :=
  let words := m.words.setIfInBounds m.i word
  if size ≤ m.i + 1 then ⟨words.setIfInBounds 0 (words.getD (size - 1) 0), 1, j⟩
  else ⟨words, m.i + 1, j⟩

/-- The word before the current one, folded onto itself. -/
def Mixing.folded (m : Mixing) : UInt32 :=
  let before := m.words.getD (m.i - 1) 0
  before ^^^ (before >>> 30)

/-- The generator seeded by a key of at least one word. -/
def ofKey (key : Array UInt32) : Twister :=
  let start : Mixing := ⟨spread 19650218, 1, 0⟩
  let mixed := (List.range (max size key.size)).foldl (fun (m : Mixing) _ =>
    let word := (m.words.getD m.i 0 ^^^ (m.folded * 1664525)) + key.getD m.j 0 + UInt32.ofNat m.j
    m.step word (if key.size ≤ m.j + 1 then 0 else m.j + 1)) start
  let mixed := (List.range (size - 1)).foldl (fun (m : Mixing) _ =>
    m.step ((m.words.getD m.i 0 ^^^ (m.folded * 1566083941)) - UInt32.ofNat m.i) m.j) mixed
  ⟨mixed.words.setIfInBounds 0 0x80000000, size⟩

/-- The base `2 ^ 32` digits of a number, least significant first; `fuel` bounds their number. -/
def digitsWithin : Nat → Nat → List UInt32
  | 0, _ => []
  | fuel + 1, n => if n = 0 then [] else UInt32.ofNat n :: digitsWithin fuel (n >>> 32)

/-- The generator seeded by a number. -/
def ofNat (n : Nat) : Twister :=
  let digits := digitsWithin (Nat.log2 n + 1) n
  ofKey (if digits.isEmpty then #[0] else digits.toArray)

/-- The generator seeded by an integer; the sign does not count. -/
def ofInt (i : Int) : Twister := ofNat i.natAbs

/-- The generator seeded by a text. -/
def ofText (s : String) : Twister :=
  let bytes := s.toUTF8.toList
  ofNat ((bytes ++ Digest.sha512 bytes).foldl (fun n b => n * 256 + b.toNat) 0)

/-- The words renewed by the recurrence. -/
def renewed (words : Array UInt32) : Array UInt32 :=
  (List.range size).foldl (fun (w : Array UInt32) k =>
    let y := (w.getD k 0 &&& 0x80000000) ||| (w.getD ((k + 1) % size) 0 &&& 0x7fffffff)
    let twist : UInt32 := if y &&& 1 == 0 then 0 else 0x9908b0df
    w.setIfInBounds k (w.getD ((k + 397) % size) 0 ^^^ (y >>> 1) ^^^ twist)) words

/-- A word as it is given out. -/
def tempered (y : UInt32) : UInt32 :=
  let y := y ^^^ (y >>> 11)
  let y := y ^^^ ((y <<< 7) &&& 0x9d2c5680)
  let y := y ^^^ ((y <<< 15) &&& 0xefc60000)
  y ^^^ (y >>> 18)

/-- The next 32 random bits. -/
def next (t : Twister) : UInt32 × Twister :=
  let t := if size ≤ t.used then ⟨renewed t.words, 0⟩ else t
  (tempered (t.words.getD t.used 0), { t with used := t.used + 1 })

end Twister

end Questionnaire
