/-! # The Mersenne twister

A generator of 32-bit words with 624 words of state, and the numbers, floats and orders made from
its words. The seed is a whole number; its sign does not matter.
-/

namespace Errand

/-- A generator: its words, and how many of them were handed out since they were last renewed. -/
structure Twister where
  words : Array UInt32
  used : Nat

namespace Twister

def size : Nat := 624

def spread (seed : UInt32) : Array UInt32 :=
  (List.range (size - 1)).foldl
    (fun words k =>
      let last := words.back?.getD 0
      words.push ((last ^^^ (last >>> 30)) * 1812433253 + UInt32.ofNat (k + 1)))
    #[seed]

/-- Puts a word at place `i` and steps on. The first place repeats the last one. -/
def place (words : Array UInt32) (i : Nat) (word : UInt32) : Array UInt32 × Nat :=
  let words := words.setIfInBounds i word
  if i + 1 < size then (words, i + 1) else (words.setIfInBounds 0 word, 1)

def mixed (factor : UInt32) (words : Array UInt32) (i : Nat) : UInt32 :=
  let before := words.getD (i - 1) 0
  words.getD i 0 ^^^ ((before ^^^ (before >>> 30)) * factor)

def ofWords (key : List UInt32) : Twister :=
  let key := key.toArray
  let (words, i) := (List.range (max size key.size)).foldl
    (fun (words, i) k =>
      let j := k % key.size
      place words i (mixed 1664525 words i + key.getD j 0 + UInt32.ofNat j))
    (spread 19650218, 1)
  let (words, _) := (List.range (size - 1)).foldl
    (fun (words, i) _ => place words i (mixed 1566083941 words i - UInt32.ofNat i))
    (words, i)
  { words := words.setIfInBounds 0 0x80000000, used := size }

def wordsOf (n : Nat) : List UInt32 :=
  (List.range (n.log2 / 32 + 1)).map fun i => UInt32.ofNat (n >>> (32 * i))

def ofSeed (seed : Int) : Twister := ofWords (wordsOf seed.natAbs)

def renewWord (words : Array UInt32) (i : Nat) : Array UInt32 :=
  let y := (words.getD i 0 &&& 0x80000000) ||| (words.getD ((i + 1) % size) 0 &&& 0x7fffffff)
  let odd : UInt32 := if y &&& 1 = 1 then 0x9908b0df else 0
  words.setIfInBounds i (words.getD ((i + 397) % size) 0 ^^^ (y >>> 1) ^^^ odd)

def renew (words : Array UInt32) : Array UInt32 := (List.range size).foldl renewWord words

def temper (y : UInt32) : UInt32 :=
  let y := y ^^^ (y >>> 11)
  let y := y ^^^ ((y <<< 7) &&& 0x9d2c5680)
  let y := y ^^^ ((y <<< 15) &&& 0xefc60000)
  y ^^^ (y >>> 18)

def word (g : Twister) : UInt32 × Twister :=
  let g := if g.used < size then g else { words := renew g.words, used := 0 }
  (temper (g.words.getD g.used 0), { g with used := g.used + 1 })

/-- A number of `k` bits out of `count` words, the low word first; the last word gives its high
bits. -/
def bitsOf : Nat → Nat → Twister → Nat × Twister
  | 0, _, g => (0, g)
  | count + 1, k, g =>
    let (low, g) := g.word
    let (high, g) := bitsOf count (k - 32) g
    (low.toNat >>> (32 - k) + Nat.pow 2 32 * high, g)

def bits (k : Nat) (g : Twister) : Nat × Twister := bitsOf ((k + 31) / 32) k g

def fraction (g : Twister) : Nat × Twister :=
  let (a, g) := g.word
  let (b, g) := g.word
  ((a >>> 5).toNat * Nat.pow 2 26 + (b >>> 6).toNat, g)

/-- `n / 2 ^ 53` as a float, which is exact up to one. -/
def unitFloat (n : Nat) : Float := Float.ofNat n / 9007199254740992.0

/-- Draws numbers of `k` bits until one is below `n`. -/
def belowWithin (n k : Nat) : Nat → Twister → Nat × Twister
  | 0, g => (0, g)
  | left + 1, g =>
    let (r, g) := g.bits k
    if r < n then (r, g) else belowWithin n k left g

/-- The number of words after which a generator repeats itself, and one. Every run of words with the
wanted property occurs earlier, so no draw is rejected that often. -/
@[irreducible] def period : Nat := Nat.pow 2 19937

def below (n : Nat) (g : Twister) : Nat × Twister :=
  if n = 0 then (0, g) else belowWithin n (n.log2 + 1) period g

theorem belowWithin_lt {n : Nat} (h : 0 < n) (k left : Nat) (g : Twister) :
    (belowWithin n k left g).1 < n := by
  induction left generalizing g with
  | zero => exact h
  | succ left ih =>
    simp only [belowWithin]
    split
    · assumption
    · exact ih _

theorem below_lt {n : Nat} (h : 0 < n) (g : Twister) : (g.below n).1 < n := by
  rw [below, if_neg (Nat.ne_of_gt h)]
  exact belowWithin_lt h _ _ _

/-- Exchanges each place from `i` down to the second with a drawn place not after it. -/
def shuffleFrom {α : Type} : Nat → Array α → Twister → Array α × Twister
  | 0, items, g => (items, g)
  | i + 1, items, g =>
    let (j, g) := g.below (i + 2)
    shuffleFrom i (items.swapIfInBounds (i + 1) j) g

def shuffle {α : Type} (items : List α) (g : Twister) : List α × Twister :=
  let (items, g) := shuffleFrom (items.length - 1) items.toArray g
  (items.toList, g)

theorem perm_swapIfInBounds {α : Type} (items : Array α) (i j : Nat) :
    (items.swapIfInBounds i j).Perm items := by
  rw [Array.swapIfInBounds_def]
  split
  · split
    · exact Array.swap_perm ..
    · exact Array.Perm.refl _
  · exact Array.Perm.refl _

theorem perm_shuffleFrom {α : Type} (i : Nat) (items : Array α) (g : Twister) :
    (shuffleFrom i items g).1.Perm items := by
  induction i generalizing items g with
  | zero => exact Array.Perm.refl _
  | succ i ih => exact (ih _ _).trans (perm_swapIfInBounds ..)

/-- Shuffling loses no item and adds none. -/
theorem perm_shuffle {α : Type} (items : List α) (g : Twister) :
    (shuffle items g).1.Perm items := by
  simpa [shuffle] using (perm_shuffleFrom (items.length - 1) items.toArray g).toList

end Twister

end Errand
