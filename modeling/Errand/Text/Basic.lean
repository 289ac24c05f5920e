/-! # Text

Text is a list of characters, so a position counts code points. A set of characters is a table of
closed ranges of code points in ascending order.
-/

namespace Errand

abbrev Text := List Char

namespace Text

def ofUtf8? (bytes : ByteArray) : Option Text := (String.fromUTF8? bytes).map String.toList

def toUtf8 (t : Text) : ByteArray := (String.ofList t).toUTF8

def inRanges : List (Nat × Nat) → Nat → Bool
  | [], _ => false
  | (first, last) :: rest, n =>
    if n < first then false else decide (n ≤ last) || inRanges rest n

/-! ## White space -/

def blankRanges : List (Nat × Nat) :=
  [(9, 13), (28, 32), (133, 133), (160, 160), (5760, 5760), (8192, 8202), (8232, 8233),
   (8239, 8239), (8287, 8287), (12288, 12288)]

def isBlank (c : Char) : Bool := inRanges blankRanges c.toNat

def skipBlanks (t : Text) : Text := t.dropWhile isBlank

def strip (t : Text) : Text := (skipBlanks (skipBlanks t).reverse).reverse

def allBlank (t : Text) : Bool := t.all isBlank

/-! ## Stretches -/

/-- A count below zero is taken from the end; one beyond either end stands for that end. -/
def placeOf (t : Text) (count : Int) : Nat :=
  (if count < 0 then count + t.length else count).toNat

def stretch (t : Text) (start stop : Int) : Text :=
  (t.take (placeOf t stop)).drop (placeOf t start)

theorem stretch_natCast (t : Text) (start stop : Nat) :
    stretch t start stop = (t.take stop).drop start := by
  have fromStart (n : Nat) : placeOf t n = n := by
    have inside : ¬(n : Int) < 0 := by omega
    simp [placeOf, inside]
  simp only [stretch, fromStart]

end Text

end Errand
