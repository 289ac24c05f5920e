import Errand.Value.Basic
import Errand.Decimal
import Errand.Text.Digit

/-! # Reading catalog values

A JSON text as a value. Three words outside the standard stand for floats:
`NaN`, `Infinity` and `-Infinity`. Text in quotation marks holds no raw control character, and no
separator stands before a closing bracket.
-/

namespace Errand.Value

inductive Flaw
  | malformed
  | oversizedInteger

def skipSpaces (t : Text) : Text := t.dropWhile ([' ', '\t', '\n', '\r'].contains ·)

def afterWord? (word t : Text) : Option Text :=
  if word.isPrefixOf t then some (t.drop word.length) else none

def hexValue? (c : Char) : Option Nat :=
  if '0' ≤ c && c ≤ '9' then some (c.toNat - 48)
  else if 'a' ≤ c && c ≤ 'f' then some (c.toNat - 87)
  else if 'A' ≤ c && c ≤ 'F' then some (c.toNat - 55)
  else none

def readHex4 : Text → Option (Nat × Text)
  | a :: b :: c :: d :: t => do
    let a ← hexValue? a
    let b ← hexValue? b
    let c ← hexValue? c
    let d ← hexValue? d
    return (a * 4096 + b * 256 + c * 16 + d, t)
  | _ => none

def readLowHalf? : Text → Option (Nat × Text)
  | '\\' :: 'u' :: t => do
    let (low, rest) ← readHex4 t
    if 0xdc00 ≤ low && low < 0xe000 then return (low, rest) else none
  | _ => none

/-- Two halves of a pair make one character. Half a pair alone is no character, and the one that
replaces such stands in its place. -/
def readNumbered (t : Text) : Option (Char × Text) := do
  let (unit, rest) ← readHex4 t
  if 0xd800 ≤ unit && unit < 0xdc00 then
    match readLowHalf? rest with
    | some (low, rest) => return (Char.ofNat (0x10000 + (unit - 0xd800) * 0x400 + (low - 0xdc00)), rest)
    | none => return ('\ufffd', rest)
  else if 0xdc00 ≤ unit && unit < 0xe000 then return ('\ufffd', rest)
  else return (Char.ofNat unit, rest)

def escaped? : Char → Option Char
  | '"' => some '"'
  | '\\' => some '\\'
  | '/' => some '/'
  | 'b' => some '\x08'
  | 'f' => some '\x0c'
  | 'n' => some '\n'
  | 'r' => some '\r'
  | 't' => some '\t'
  | _ => none

def readText : Nat → Text → Except Flaw (Text × Text)
  | 0, _ => .error .malformed
  | fuel + 1, t =>
    match t with
    | '"' :: t => .ok ([], t)
    | '\\' :: 'u' :: t => do
      let some (c, t) := readNumbered t | throw .malformed
      let (cs, t) ← readText fuel t
      return (c :: cs, t)
    | '\\' :: c :: t => do
      let some c := escaped? c | throw .malformed
      let (cs, t) ← readText fuel t
      return (c :: cs, t)
    | c :: t =>
      if c = '\\' || c.toNat < 0x20 then .error .malformed
      else do
        let (cs, t) ← readText fuel t
        return (c :: cs, t)
    | [] => .error .malformed

/-- No digit follows a zero at the start. -/
def spanWhole : Text → Text × Text
  | '0' :: t => (['0'], t)
  | t => Text.spanDigits t

def spanFraction : Text → Text × Text
  | '.' :: t => match Text.spanDigits t with
    | ([], _) => ([], '.' :: t)
    | (digits, rest) => (digits, rest)
  | t => ([], t)

def spanPower (t : Text) : Option Int × Text :=
  match t with
  | c :: r =>
    if c = 'e' || c = 'E' then
      let (negative, r) := match r with
        | '-' :: r => (true, r)
        | '+' :: r => (false, r)
        | _ => (false, r)
      match Text.spanDigits r with
      | ([], _) => (none, t)
      | (digits, rest) =>
        (some (if negative then -(Text.number digits : Int) else Text.number digits), rest)
    else (none, t)
  | [] => (none, t)

/-- A number is a float when it has a fraction or a power of ten. -/
def readNumber (negative : Bool) (t : Text) : Except Flaw (Value × Text) :=
  let (whole, afterWhole) := spanWhole t
  if whole.isEmpty then .error .malformed
  else
    let (fraction, afterFraction) := spanFraction afterWhole
    let (power, rest) := spanPower afterFraction
    if fraction.isEmpty && power.isNone then
      if Text.digitLimit < whole.length then .error .oversizedInteger
      else
        let n := Text.number whole
        .ok (.int (if negative then -(n : Int) else n), rest)
    else
      let mantissa := Text.number (whole ++ fraction)
      .ok (.float (Decimal.nearest negative mantissa (power.getD 0 - fraction.length)), rest)

def readAtom (t : Text) : Except Flaw (Value × Text) :=
  let words : List (Text × Value) :=
    [("null".toList, .null), ("true".toList, .bool true), ("false".toList, .bool false),
      ("NaN".toList, .float (0.0 / 0.0)), ("Infinity".toList, .float (1.0 / 0.0)),
      ("-Infinity".toList, .float (-1.0 / 0.0))]
  match words.findSome? fun word => (afterWord? word.1 t).map (word.2, ·) with
  | some found => .ok found
  | none => match t with
    | '-' :: t => readNumber true t
    | t => readNumber false t

mutual

def readValue : Nat → Text → Except Flaw (Value × Text)
  | 0, _ => .error .malformed
  | fuel + 1, t =>
    match t with
    | '"' :: t => do
      let (s, t) ← readText fuel t
      return (.text s, t)
    | '[' :: t =>
      match skipSpaces t with
      | ']' :: t => .ok (.list [], t)
      | t => do
        let (items, t) ← readItems fuel t
        return (.list items, t)
    | '{' :: t =>
      match skipSpaces t with
      | '}' :: t => .ok (.object [], t)
      | t => do
        let (fields, t) ← readFields fuel t
        return (ofFields fields, t)
    | t => readAtom t

def readItems : Nat → Text → Except Flaw (List Value × Text)
  | 0, _ => .error .malformed
  | fuel + 1, t => do
    let (item, t) ← readValue fuel t
    match skipSpaces t with
    | ']' :: t => return ([item], t)
    | ',' :: t =>
      let (items, t) ← readItems fuel (skipSpaces t)
      return (item :: items, t)
    | _ => throw .malformed

def readFields : Nat → Text → Except Flaw (List (Text × Value) × Text)
  | 0, _ => .error .malformed
  | fuel + 1, t =>
    match t with
    | '"' :: t => do
      let (key, t) ← readText fuel t
      match skipSpaces t with
      | ':' :: t =>
        let (value, t) ← readValue fuel (skipSpaces t)
        match skipSpaces t with
        | '}' :: t => return ([(key, value)], t)
        | ',' :: t =>
          let (fields, t) ← readFields fuel (skipSpaces t)
          return ((key, value) :: fields, t)
        | _ => throw .malformed
      | _ => throw .malformed
    | _ => .error .malformed

end

/-- Every step takes a character or hands the same text to a reader of smaller parts, so twice the
length bounds the steps. -/
def read (t : Text) : Except Flaw Value := do
  let (value, rest) ← readValue (2 * t.length + 2) (skipSpaces t)
  if (skipSpaces rest).isEmpty then return value else throw .malformed

end Errand.Value
