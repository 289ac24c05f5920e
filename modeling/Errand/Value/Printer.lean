import Errand.Value.Basic
import Errand.Decimal
import Errand.Text.Quoted
import Errand.Text.Digit

/-! # Printing catalog values

The text that stands for a value in messages and descriptions.
-/

namespace Errand.Value

/-- The decimal `0.digits · 10 ^ place`, with a power of ten where it is large or small. -/
def decimalText (digits : Text) (place : Int) : Text :=
  if -4 < place && place ≤ 16 then
    if place ≤ 0 then "0.".toList ++ List.replicate (-place).toNat '0' ++ digits
    else
      let whole := digits.take place.toNat ++ List.replicate (place.toNat - digits.length) '0'
      let fraction := digits.drop place.toNat
      whole ++ '.' :: (if fraction.isEmpty then ['0'] else fraction)
  else
    let power := place - 1
    let figures := Text.decimal power.natAbs
    let fraction := digits.drop 1
    digits.take 1 ++ (if fraction.isEmpty then [] else '.' :: fraction) ++
      'e' :: (if power < 0 then '-' else '+') :: List.replicate (2 - figures.length) '0' ++ figures

def floatText (x : Float) : Text :=
  let bits := x.toBits.toNat
  let sign : Text := if Nat.pow 2 63 ≤ bits then ['-'] else []
  match Decimal.Magnitude.ofBits (bits % Nat.pow 2 63) with
  | .zero => sign ++ "0.0".toList
  | .infinite => sign ++ "inf".toList
  | .undefined => "nan".toList
  | .finite m q =>
    let (digits, place) := Decimal.shortest m q
    sign ++ decimalText digits place

mutual

def described : Value → Text
  | .null => "None".toList
  | .bool true => "True".toList
  | .bool false => "False".toList
  | .int n => Text.signedDecimal n
  | .float x => floatText x
  | .text t => Text.quoted t
  | .list items => '[' :: describedItems true items ++ [']']
  | .object fields => '{' :: describedFields true fields ++ ['}']

def describedItems (first : Bool) : List Value → Text
  | [] => []
  | item :: items =>
    (if first then [] else ", ".toList) ++ described item ++ describedItems false items

def describedFields (first : Bool) : List (Text × Value) → Text
  | [] => []
  | (key, value) :: fields =>
    (if first then [] else ", ".toList) ++ Text.quoted key ++ ": ".toList ++ described value ++
      describedFields false fields

end

def shown : Value → Text
  | .text t => t
  | value => described value

end Errand.Value
