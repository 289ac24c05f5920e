import Errand.Text.Basic

/-! # Lines

Three ways to break a text: typed text breaks at every line separator, the contents of a file at
line feeds and carriage returns only, and metadata also at escaped spellings of a line break.
-/

namespace Errand.Text

def prependChar (c : Char) : List Text → List Text
  | [] => [[c]]
  | line :: lines => (c :: line) :: lines

/-- Carriage returns end a line too, alone or before a line feed. Nothing follows the last end. -/
def breakAt (isEnd : Char → Bool) : Text → List Text
  | [] => []
  | '\r' :: '\n' :: t => [] :: breakAt isEnd t
  | c :: t =>
    if c = '\r' || isEnd c then [] :: breakAt isEnd t else prependChar c (breakAt isEnd t)

def isLineEnd (c : Char) : Bool :=
  ['\n', '\r', '\x0b', '\x0c', '\x1c', '\x1d', '\x1e', '\u0085', '\u2028', '\u2029'].contains c

def typedLines (t : Text) : List Text := breakAt isLineEnd t

def fileLines (t : Text) : List Text := breakAt (· = '\n') t

/-- Two backslashes end a line as well, and drop an `r` or `n` behind them. -/
def metadataLines : Text → List Text
  | [] => [[]]
  | '\\' :: '\\' :: 'r' :: t => [] :: metadataLines t
  | '\\' :: '\\' :: 'n' :: t => [] :: metadataLines t
  | '\\' :: '\\' :: t => [] :: metadataLines t
  | '\r' :: '\n' :: t => [] :: metadataLines t
  | '\r' :: t => [] :: metadataLines t
  | '\n' :: t => [] :: metadataLines t
  | c :: t => prependChar c (metadataLines t)

theorem prependChar_ne_nil (c : Char) (lines : List Text) : prependChar c lines ≠ [] := by
  cases lines <;> simp [prependChar]

theorem metadataLines_ne_nil (t : Text) : metadataLines t ≠ [] := by
  unfold metadataLines
  split <;> first | exact List.cons_ne_nil _ _ | exact prependChar_ne_nil _ _

def joined (separator : Text) (ts : List Text) : Text := List.intercalate separator ts

end Errand.Text
