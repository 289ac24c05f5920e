/-! # Decimals and doubles

The double nearest to a decimal `mantissa · 10 ^ exponent`, a tie going to the even neighbour, and the
shortest decimal of a double. A positive double is `m · 2 ^ q`, and the real numbers closest to it form
an interval: of the decimals with the fewest digits in it the nearest is taken. Powers are written
`Nat.pow`, for `^` is another instance wherever algebra is imported.
-/

namespace Errand.Decimal

/-! ## The nearest double -/

def roundDiv (num den : Nat) : Nat :=
  let q := num / den
  let r := num % den
  if 2 * r < den then q else if den < 2 * r then q + 1 else q + q % 2

def scaledRound (num den : Nat) (scale : Int) : Nat :=
  if 0 ≤ scale then roundDiv num (den <<< scale.toNat) else roundDiv (num <<< (-scale).toNat) den

def infinityBits : Nat := 0x7ff <<< 52

/-- The scale leaves 53 binary digits before the point, unless the number is too small for that. -/
def quotientBits (num den : Nat) : Nat :=
  if num = 0 then 0
  else
    let guess : Int := (num.log2 : Int) - den.log2 - 52
    let low := if 0 ≤ guess then num / (den <<< guess.toNat) < Nat.pow 2 52
      else (num <<< (-guess).toNat) / den < Nat.pow 2 52
    let scale := max (-1074) (if low then guess - 1 else guess)
    min infinityBits ((scale + 1074).toNat * Nat.pow 2 52 + scaledRound num den scale)

/-- Numbers out of reach of every double are told by their size, without a power of ten. -/
def nearestBits (mantissa : Nat) (exponent : Int) : Nat :=
  if mantissa = 0 then 0
  else
    let size : Int := exponent + (Nat.toDigits 10 mantissa).length
    if 310 < size then infinityBits
    else if size < -330 then 0
    else if 0 ≤ exponent then quotientBits (mantissa * Nat.pow 10 exponent.toNat) 1
    else quotientBits mantissa (Nat.pow 10 (-exponent).toNat)

def nearest (negative : Bool) (mantissa : Nat) (exponent : Int) : Float :=
  Float.ofBits (UInt64.ofNat (nearestBits mantissa exponent + if negative then Nat.pow 2 63 else 0))

/-! ## The shortest decimal -/

inductive Magnitude
  | zero
  | finite (m : Nat) (q : Int)
  | infinite
  | undefined

def Magnitude.ofBits (bits : Nat) : Magnitude :=
  let biased := bits >>> 52 % 2048
  let fraction := bits % Nat.pow 2 52
  if biased = 2047 then (if fraction = 0 then .infinite else .undefined)
  else if biased = 0 then (if fraction = 0 then .zero else .finite fraction (-1074))
  else .finite (Nat.pow 2 52 + fraction) ((biased : Int) - 1075)

/-- The numbers that read as `m · 2 ^ q`, in units of `1 / den`: the value and the two ends. -/
structure Interval where
  low : Nat
  value : Nat
  high : Nat
  den : Nat
  closed : Bool

/-- The interval of `m · 2 ^ q`. Below a power of two the neighbour is only half as far away. The
ends belong to it when `m` is even. -/
def Interval.ofDouble (m : Nat) (q : Int) : Interval :=
  let below := if m = Nat.pow 2 52 && decide (-1074 < q) then 1 else 2
  let scale := Nat.pow 2 q.toNat
  { low := (4 * m - below) * scale
    value := 4 * m * scale
    high := (4 * m + 2) * scale
    den := 4 * Nat.pow 2 (-q).toNat
    closed := m % 2 = 0 }

def Interval.contains (i : Interval) (n unitNum unitDen : Nat) : Bool :=
  let x := n * unitNum * i.den
  let low := i.low * unitDen
  let high := i.high * unitDen
  if i.closed then low ≤ x && x ≤ high else low < x && x < high

def Interval.nearestMultiple? (i : Interval) (exponent : Int) : Option Nat :=
  let unitNum := Nat.pow 10 exponent.toNat
  let unitDen := Nat.pow 10 (-exponent).toNat
  let n := i.value * unitDen / (unitNum * i.den)
  let lowHit := i.contains n unitNum unitDen
  let highHit := i.contains (n + 1) unitNum unitDen
  let belowGap := i.value * unitDen - n * unitNum * i.den
  let aboveGap := (n + 1) * unitNum * i.den - i.value * unitDen
  if lowHit && (!highHit || belowGap < aboveGap || (belowGap == aboveGap && n % 2 == 0)) then some n
  else if highHit then some (n + 1)
  else none

/-- Seventeen digits always suffice, so a search through the numbers of digits ends there. -/
def Interval.search (i : Interval) (top : Int) : Nat → Option (Nat × Int)
  | 0 => none
  | left + 1 =>
    let exponent := top - (17 - left)
    match i.nearestMultiple? exponent with
    | some n => some (n, exponent)
    | none => i.search top left

/-- The least `e` with `num < 10 ^ e · den`, for a positive quotient: its first digit stands at
`e - 1`. The logarithm to base two gives a start that is never too high. -/
def orderOfTen (num den : Nat) : Int :=
  let bits : Int := (num.log2 : Int) - den.log2
  let start : Int := Int.fdiv (bits * 30103) 100000 - 1
  let above (e : Int) : Bool := num * Nat.pow 10 (-e).toNat < Nat.pow 10 e.toNat * den
  if above start then start else if above (start + 1) then start + 1
  else if above (start + 2) then start + 2 else start + 3

def dropZeros : Nat → Nat → Nat → Nat × Nat
  | 0, n, dropped => (n, dropped)
  | fuel + 1, n, dropped =>
    if n ≠ 0 && n % 10 = 0 then dropZeros fuel (n / 10) (dropped + 1) else (n, dropped)

/-- The digits of the decimal, and the place of the point counted from their start. -/
def shortest (m : Nat) (q : Int) : List Char × Int :=
  let i := Interval.ofDouble m q
  let top := orderOfTen i.value i.den
  let (n, exponent) := (i.search top 17).getD (0, 0)
  let (n, dropped) := dropZeros 18 n 0
  let digits := Nat.toDigits 10 n
  (digits, exponent + dropped + digits.length)

end Errand.Decimal
