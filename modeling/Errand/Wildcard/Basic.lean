import Errand.Kind
import Errand.Text.Digit
import Errand.Text.Quoted

/-! # Wildcards

A place in braces that a session fills: what it asks for, and the key under which wildcards that
mean the same share an entry.
-/

namespace Errand

structure Wildcard where
  source : Text
  /-- Where the source starts; counted from the end of the text if below zero. -/
  index : Int
  name : Text
  type : Option Text
  id : Option Nat
  obfuscated : Bool
  metadata : Text
  deriving DecidableEq, Inhabited

namespace Wildcard

/-- Numbers from here on ask for a fresh entry every time. -/
def instanceBase : Nat := 1000

def isInstance (w : Wildcard) : Bool :=
  match w.id with
  | some n => instanceBase ≤ n
  | none => false

def stop (w : Wildcard) : Int := w.index + w.source.length

def kind? (w : Wildcard) : Option Kind := Kind.ofName? w.name

def options (w : Wildcard) : List Kind := (w.kind?.map Kind.options).getD []

/-- What the wildcard means, apart from its number. A type that is one of the choices of the name
stands for the kind it narrows to; any other is kept beside the name. -/
def meaning (w : Wildcard) : Text :=
  match w.type with
  | none => w.name
  | some type =>
    match Kind.ofQualifier? type with
    | some k => if k.label = w.name || w.options.contains k then k.label else w.name ++ ':' :: type
    | none => w.name ++ ':' :: type

/-- The key under which the entry of a wildcard is kept. -/
def keycode (w : Wildcard) : Text :=
  w.meaning ++ (match w.id with
    | none => []
    | some n => Text.decimal n)

def described (w : Wildcard) : Text :=
  "Wildcard(".toList ++ Text.quoted w.source ++ " @ ".toList ++ Text.signedDecimal w.index ++ [')']

end Wildcard

end Errand
