import Errand.Value.Printer

/-! # Writing catalog values

A value as JSON text in ASCII.
-/

namespace Errand.Value

/-- A 16-bit unit by its number. -/
def writeUnit (unit : Nat) : Text := '\\' :: 'u' :: Text.hex 4 unit

def writeChar (c : Char) : Text :=
  match c with
  | '"' => ['\\', '"']
  | '\\' => ['\\', '\\']
  | '\n' => ['\\', 'n']
  | '\r' => ['\\', 'r']
  | '\t' => ['\\', 't']
  | '\x08' => ['\\', 'b']
  | '\x0c' => ['\\', 'f']
  | c =>
    if ' ' ≤ c && c ≤ '~' then [c]
    else if c.toNat < 0x10000 then writeUnit c.toNat
    else
      let offset := c.toNat - 0x10000
      writeUnit (0xd800 + offset / 0x400) ++ writeUnit (0xdc00 + offset % 0x400)

def writeText (t : Text) : Text := '"' :: t.flatMap writeChar ++ ['"']

/-- A float, with the words for those that are no decimal. -/
def writeFloat (x : Float) : Text :=
  if x.isNaN then "NaN".toList
  else if x.isInf then (if x < 0 then "-Infinity".toList else "Infinity".toList)
  else floatText x

mutual

def written : Value → Text
  | .null => "null".toList
  | .bool true => "true".toList
  | .bool false => "false".toList
  | .int n => Text.signedDecimal n
  | .float x => writeFloat x
  | .text t => writeText t
  | .list items => '[' :: writtenItems true items ++ [']']
  | .object fields => '{' :: writtenFields true fields ++ ['}']

def writtenItems (first : Bool) : List Value → Text
  | [] => []
  | item :: items =>
    (if first then [] else ", ".toList) ++ written item ++ writtenItems false items

def writtenFields (first : Bool) : List (Text × Value) → Text
  | [] => []
  | (key, value) :: fields =>
    (if first then [] else ", ".toList) ++ writeText key ++ ": ".toList ++ written value ++
      writtenFields false fields

end

end Errand.Value
