import Errand.Text.Basic

/-! # Decimal digits

Every script writes its ten digits on consecutive code points, zero first.
-/

namespace Errand.Text

def digitZeros : List Nat :=
  [48, 1632, 1776, 1984, 2406, 2534, 2662, 2790, 2918, 3046, 3174, 3302, 3430, 3558, 3664, 3792,
   3872, 4160, 4240, 6112, 6160, 6470, 6608, 6784, 6800, 6992, 7088, 7232, 7248, 42528, 43216,
   43264, 43472, 43504, 43600, 44016, 65296, 66720, 68912, 69734, 69872, 69942, 70096, 70384,
   70736, 70864, 71248, 71360, 71472, 71904, 72016, 72784, 73040, 73120, 92768, 92864, 93008,
   120782, 120792, 120802, 120812, 120822, 123200, 123632, 125264, 130032]

def digitValue? (c : Char) : Option Nat :=
  (digitZeros.find? fun z => decide (z ≤ c.toNat) && decide (c.toNat < z + 10)).map
    (c.toNat - ·)

def isDigit (c : Char) : Bool := (digitValue? c).isSome

/-- The most digits with which a number is read or written. -/
def digitLimit : Nat := 4300

def number (digits : Text) : Nat :=
  digits.foldl (fun total c => 10 * total + (digitValue? c).getD 0) 0

def spanDigits (t : Text) : Text × Text := (t.takeWhile Char.isDigit, t.dropWhile Char.isDigit)

def decimal (n : Nat) : Text := Nat.toDigits 10 n

def signedDecimal (n : Int) : Text :=
  if n < 0 then '-' :: decimal n.natAbs else decimal n.natAbs

def ofInteger? (n : Int) : Option Text :=
  if n.natAbs < Nat.pow 10 digitLimit then some (signedDecimal n) else none

def toInteger? (t : Text) : Option Int :=
  let digits := if t.head? = some '-' then t.drop 1 else t
  let size : Int := number digits
  if digitLimit < digits.length then none else some (if t.head? = some '-' then -size else size)

end Errand.Text
