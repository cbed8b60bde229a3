import Questionnaire.Chance.Twister
import Questionnaire.Number.Binary64

/-!
# Random choices

Orders and loop plans are drawn from a generator: the Mersenne twister, or a script of draws in
thousandths that is repeated when it ends. A generator gives a number from zero to one
(`Generator.unit`), an index below a bound (`Generator.below`), and from these a shuffled list
(`Generator.shuffle`), which is a permutation whatever the generator (`Generator.shuffle_perm`).
-/

namespace Questionnaire

/-- A source of random choices. -/
inductive Generator
  | script (draws : List Nat) (used : Nat)
  | twister (t : Twister)
  deriving Inhabited

namespace Generator

/-- The generator of a script of draws, each below 1000. -/
def ofScript (draws : List Nat) : Generator := .script draws 0

/-- The generator seeded by an integer. -/
def ofInt (seed : Int) : Generator := .twister (.ofInt seed)

/-- The generator seeded by a text. -/
def ofText (seed : String) : Generator := .twister (.ofText seed)

/-- The next draw of a script. -/
def draw (draws : List Nat) (used : Nat) : Nat := draws.getD (used % max draws.length 1) 0

/-- A number at least zero and below one. -/
def unit : Generator → Binary64 × Generator
  | .script draws used =>
    (.ofRatio false (draw draws used) 1000, .script draws (used + 1))
  | .twister t =>
    let (a, t) := t.next
    let (b, t) := t.next
    let draw := (a >>> 5).toNat * Binary64.twoTo 26 + (b >>> 6).toNat
    (.ofRatio false draw (Binary64.twoTo 53), .twister t)

/-- Draws words until their leading `bits` bits are below `n`; after `tries` words the remainder by
`n` is taken. -/
def rejectionBelow (n bits : Nat) : Nat → Twister → Nat × Twister
  | 0, t =>
    let (w, t) := t.next
    (w.toNat % n, t)
  | tries + 1, t =>
    let (w, t) := t.next
    let r := w.toNat >>> (32 - bits)
    if r < n then (r, t) else rejectionBelow n bits tries t

/-- The number of words drawn at most for one index. Each is refused with probability below one
half. -/
def maxTries : Nat := 10000

/-- An index below `n`, for a positive `n`. -/
def below (n : Nat) : Generator → Nat × Generator
  | .script draws used => (draw draws used * n / 1000, .script draws (used + 1))
  | .twister t =>
    let (i, t) := rejectionBelow n (Nat.log2 n + 1) maxTries t
    (i, .twister t)

/-- Swaps each of the positions `i, i - 1, …, 1` with one drawn at or below it. -/
def shuffleDown {α : Type} : Nat → Array α → Generator → Array α × Generator
  | 0, a, g => (a, g)
  | i + 1, a, g =>
    let (j, g) := g.below (i + 2)
    shuffleDown i (a.swapIfInBounds (i + 1) j) g

/-- A list in random order. -/
def shuffle {α : Type} (l : List α) (g : Generator) : List α × Generator :=
  let (a, g) := shuffleDown (l.length - 1) l.toArray g
  (a.toList, g)

theorem swapIfInBounds_perm {α : Type} (a : Array α) (i j : Nat) :
    (a.swapIfInBounds i j).Perm a := by
  unfold Array.swapIfInBounds
  split
  · split
    · exact Array.swap_perm _ _
    · exact .refl a
  · exact .refl a

theorem shuffleDown_perm {α : Type} :
    ∀ (i : Nat) (a : Array α) (g : Generator), (shuffleDown i a g).1.Perm a
  | 0, a, _ => .refl a
  | i + 1, a, _ => (shuffleDown_perm i _ _).trans (swapIfInBounds_perm a (i + 1) _)

/-- A shuffled list is a permutation of the list. -/
theorem shuffle_perm {α : Type} (l : List α) (g : Generator) : (shuffle l g).1.Perm l := by
  simpa [shuffle] using (shuffleDown_perm (l.length - 1) l.toArray g).toList

end Generator

end Questionnaire
