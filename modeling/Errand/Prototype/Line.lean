import Errand.Text.Basic
import Errand.Text.Digit
import Errand.Text.Lines

/-! # Prototype lines

A list of prototypes has one on each line. Blank lines and lines that start with `#` are left out. A
number between percent signs is the weight of its line, and a percent sign after a backslash stands
for itself.
-/

namespace Errand

structure WeightLiteral where
  digits : Nat
  places : Nat
  deriving DecidableEq

def WeightLiteral.one : WeightLiteral := ⟨1, 0⟩

structure Prototype where
  text : Text
  weight : WeightLiteral
  deriving DecidableEq

namespace Prototype

/-- There are digits after the point, or there is no point and there are digits. -/
def weight? (t : Text) : Option (WeightLiteral × Text) :=
  let (whole, rest) := Text.spanDigits t
  match rest with
  | '%' :: rest =>
    if whole.isEmpty then none else some (⟨Text.number whole, 0⟩, rest)
  | '.' :: rest =>
    match Text.spanDigits rest with
    | (fraction, '%' :: rest) =>
      if fraction.isEmpty then none
      else some (⟨Text.number (whole ++ fraction), fraction.length⟩, rest)
    | _ => none
  | _ => none

/-- The first weight tag of a text and the text without it; `escaped` says that a backslash stands
before the text. -/
def cutTag? (escaped : Bool) : Text → Option (WeightLiteral × Text)
  | [] => none
  | c :: t =>
    match if c = '%' && !escaped then weight? t else none with
    | some found => some found
    | none => (cutTag? (c = '\\') t).map fun (weight, rest) => (weight, c :: rest)

def unescape : Text → Text
  | [] => []
  | '\\' :: '%' :: t => '%' :: unescape t
  | c :: t => c :: unescape t

def ofLine? (line : Text) : Option Prototype :=
  let line := Text.strip line
  match line with
  | [] => none
  | '#' :: _ => none
  | _ =>
    let (weight, line) := match cutTag? false line with
      | some (weight, rest) => (weight, Text.strip rest)
      | none => (.one, line)
    let text := unescape line
    if text.isEmpty then none else some { text, weight }

def ofLines (lines : List Text) : List Prototype := lines.filterMap ofLine?

end Prototype

end Errand
