import Errand.Text.Word
import Errand.Text.Digit
import Errand.Text.Case

/-! # The text between the braces

A name, then optionally a type, a number, a question mark, and the word `meta` with a colon and
free text. A type is set off by a colon or white space and a number by `#` or white space. Every
part takes all it can, and each part decides by its first character, so no part is read twice.
-/

namespace Errand.Wildcard

/-- The parts of a body, as written. -/
structure Body where
  name : Text
  type : Option Text
  digits : Option Text
  obfuscated : Bool
  metadata : Text
  deriving DecidableEq

def identifier? : Text → Option (Text × Text)
  | c :: t => if Text.isNameStart c then
      some (c :: t.takeWhile Text.isWord, t.dropWhile Text.isWord) else none
  | [] => none

def afterMeta? : Text → Option Text
  | m :: e :: t :: a :: rest =>
    if [m, e, t, a].map Char.toLower = ['m', 'e', 't', 'a'] then some rest else none
  | _ => none

def startsInWord : Text → Bool
  | c :: _ => Text.isWord c
  | [] => false

def startsWithMeta (t : Text) : Bool :=
  match afterMeta? t with
  | some rest => !startsInWord rest
  | none => false

/-- What follows a separation: a `mark` that may have white space around it, or white space
alone. -/
def afterSeparator? (mark : Char) (t : Text) : Option Text :=
  match Text.skipBlanks t with
  | c :: rest =>
    if c = mark then some (Text.skipBlanks rest)
    else if (Text.skipBlanks t).length < t.length then some (c :: rest)
    else none
  | [] => none

def type? (t : Text) : Option (Text × Text) := do
  let rest ← afterSeparator? ':' t
  if startsWithMeta rest then none else identifier? rest

def digits? (t : Text) : Option (Text × Text) := do
  let rest ← afterSeparator? '#' t
  let digits := rest.takeWhile Text.isDigit
  if digits.isEmpty then none else some (digits, rest.dropWhile Text.isDigit)

def optional (part : Text → Option (Text × Text)) (t : Text) : Option Text × Text :=
  match part t with
  | some (found, rest) => (some found, rest)
  | none => (none, t)

def mark (t : Text) : Bool × Text :=
  match Text.skipBlanks t with
  | '?' :: rest => (true, Text.skipBlanks rest)
  | rest => (false, rest)

/-- The free text after the word `meta` and a colon. -/
def metadata? (t : Text) : Option Text := do
  let rest ← afterMeta? t
  match Text.skipBlanks rest with
  | ':' :: text => some (Text.strip text)
  | _ => none

/-- The parts of a body. The word `meta` must not stand directly after a number. -/
def Body.read? (t : Text) : Option Body := do
  let (name, afterName) ← identifier? (Text.skipBlanks t)
  let (type, afterType) := optional type? afterName
  let (digits, afterDigits) := optional digits? afterType
  let (obfuscated, rest) := mark afterDigits
  if rest.isEmpty then return { name, type, digits, obfuscated, metadata := [] }
  if rest.length = afterDigits.length then none
  let metadata ← metadata? rest
  return { name, type, digits, obfuscated, metadata }

end Errand.Wildcard
