import Errand.Decimal
import Errand.FileTree
import Errand.Notice
import Errand.Prototype.Line
import Errand.Random.Dice

/-! # Choosing a prototype

A prototype is chosen in proportion to its weight: the running totals of the weights divide the
interval up to their sum, and a point of it is drawn. The arithmetic of the weights is a parameter;
programs use floats.
-/

namespace Errand

class Weight (W : Type) extends Add W, Mul W, Zero W, LT W, LE W where
  decidableLT : DecidableLT W
  decidableLE : DecidableLE W
  ofLiteral : WeightLiteral → W
  /-- `n / 2 ^ 53`, a point of the unit interval. -/
  ofFraction : Nat → W

instance Weight.instDecidableLT {W : Type} [Weight W] : DecidableLT W := Weight.decidableLT

instance Weight.instDecidableLE {W : Type} [Weight W] : DecidableLE W := Weight.decidableLE

instance : Weight Float where
  zero := 0.0
  decidableLT := fun x y => inferInstanceAs (Decidable (x < y))
  decidableLE := fun x y => inferInstanceAs (Decidable (x ≤ y))
  ofLiteral w := Decimal.nearest false w.digits (-w.places)
  ofFraction := Twister.unitFloat

/-- The lists belong together by position. -/
structure PrototypeList (W : Type) where
  items : List Text
  weights : List W

namespace PrototypeList

variable {W : Type} [Weight W]

def ofLines (lines : List Text) : PrototypeList W :=
  let parsed := Prototype.ofLines lines
  { items := parsed.map (·.text), weights := parsed.map fun p => Weight.ofLiteral p.weight }

/-- Nothing if the file is not in UTF-8. One that cannot be opened holds none, which is noted. -/
def ofFile? (path : Text) (found : Found) : Option (PrototypeList W) × List Notice :=
  match found with
  | .file bytes => ((Text.ofUtf8? bytes).map fun t => .ofLines (Text.fileLines t), [])
  | _ => (some { items := [], weights := [] }, [.prototypesUnreadable path])

def totalsAfter (total : W) : List W → List W
  | [] => []
  | w :: ws => (total + w) :: totalsAfter (total + w) ws

def totals : List W → List W
  | [] => []
  | w :: ws => w :: totalsAfter w ws

/-- The first place from `low` up to `high` whose total lies above `x`, found by halving. -/
def firstAbove (totals : Array W) (x : W) : Nat → Nat → Nat → Nat
  | 0, low, _ => low
  | fuel + 1, low, high =>
    if low < high then
      let middle := (low + high) / 2
      if x < totals.getD middle 0 then firstAbove totals x fuel low middle
      else firstAbove totals x fuel (middle + 1) high
    else low

def placeOf (totals : List W) (x : W) : Nat :=
  min (firstAbove totals.toArray x totals.length 0 totals.length) (totals.length - 1)

/-- All places are alike when the weights sum to nothing. -/
def chooseIndex (weights : List W) (dice : Dice) : Nat × Dice :=
  match (totals weights).getLast? with
  | none => (0, dice)
  | some sum =>
    if sum ≤ 0 then dice.below weights.length
    else
      let (n, dice) := dice.fraction
      (placeOf (totals weights) (Weight.ofFraction n * sum), dice)

end PrototypeList

inductive PrototypeSource (W : Type)
  | text (t : Text)
  | lines (ls : List Text)
  | parsed (list : PrototypeList W)

inductive Choice
  | nothing
  | prototype (t : Text)
  | outOfRange
  deriving DecidableEq

def Choice.notices : Choice → List Notice
  | .prototype t => [.picked t]
  | _ => []

namespace PrototypeSource

variable {W : Type} [Weight W]

def list : PrototypeSource W → PrototypeList W
  | .text t => .ofLines (Text.typedLines t)
  | .lines ls => .ofLines ls
  | .parsed list => list

def choose (source : PrototypeSource W) (dice : Dice) : Choice × Dice :=
  let list := source.list
  if list.items.isEmpty then (.nothing, dice)
  else
    let (i, dice) := PrototypeList.chooseIndex list.weights dice
    match list.items[i]? with
    | some t => (.prototype t, dice)
    | none => (.outOfRange, dice)

end PrototypeSource

end Errand
