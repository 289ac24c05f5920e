import Errand.Random.Twister

/-! # Numbered generators

A counter that gives every use a generator of its own: the one seeded by the next number. How many
words a use takes therefore never shows in a later one.
-/

namespace Errand

/-- The seed of the generator that was used last. -/
structure Dice where
  seed : Int
  deriving DecidableEq, Inhabited

namespace Dice

def next (d : Dice) : Dice := ⟨d.seed + 1⟩

def generator (d : Dice) : Twister := Twister.ofSeed d.next.seed

def bits (k : Nat) (d : Dice) : Nat × Dice := ((d.generator.bits k).1, d.next)

/-- The numerator of a draw from the unit interval; the denominator is `2 ^ 53`. -/
def fraction (d : Dice) : Nat × Dice := (d.generator.fraction.1, d.next)

/-- A float drawn from the unit interval, one left out. -/
def float (d : Dice) : Float × Dice :=
  let (n, d) := d.fraction
  (Twister.unitFloat n, d)

def below (n : Nat) (d : Dice) : Nat × Dice := ((d.generator.below n).1, d.next)

def between? (low high : Int) (d : Dice) : Option Int × Dice :=
  let width := high - low + 1
  if 0 < width then
    let (n, d) := d.below width.toNat
    (some (low + n), d)
  else (none, d.next)

def choose? {α : Type} (items : List α) (d : Dice) : Option α × Dice :=
  let (i, d) := d.below items.length
  (items[i]?, d)

def shuffle {α : Type} (items : List α) (d : Dice) : List α × Dice :=
  ((d.generator.shuffle items).1, d.next)

theorem below_lt {n : Nat} (h : 0 < n) (d : Dice) : (d.below n).1 < n := Twister.below_lt h _

theorem perm_shuffle {α : Type} (items : List α) (d : Dice) : (d.shuffle items).1.Perm items :=
  Twister.perm_shuffle ..

end Dice

end Errand
