import Errand.Text.Basic
import Errand.Text.Case
import Errand.Value.Printer

/-! # Difficulty tiers

The degrees of difficulty that gestures, objects and questions have, and that a session allows.
-/

namespace Errand

inductive Tier
  | none
  | easy
  | moderate
  | high
  deriving DecidableEq, Inhabited

namespace Tier

def rank : Tier → Nat
  | .none => 0
  | .easy => 1
  | .moderate => 2
  | .high => 3

def label : Tier → Text
  | .none => "NONE".toList
  | .easy => "EASY".toList
  | .moderate => "MODERATE".toList
  | .high => "HIGH".toList

def all : List Tier := [.none, .easy, .moderate, .high]

def allows (b a : Tier) : Bool := a.rank ≤ b.rank

/-- The tier a text names in any case, white space around it aside. Any other text means easy. -/
def ofText (t : Text) : Tier :=
  let name := Text.asciiUpper (Text.strip t)
  (all.find? fun tier => tier.label = name).getD .easy

def ofValue (v : Value) : Tier := ofText v.shown

end Tier

end Errand
