import Errand.Catalog.Basic
import Errand.Pool

/-! # Tasks

A finished task is a row of tokens: stretches of the prototype, and the elements that stand for its
wildcards. Each token keeps the text it came from and lines for the one who grades the task.
-/

namespace Errand

structure Entry where
  position : Nat
  entity : Entity

inductive Element
  | entry (e : Entry)
  /-- The room or category of an entry, shown in its place. -/
  | coarser (e : Entity)
  | standIn (words : Text)
  | pronoun (word : Text)
  | hidden

def Element.name : Element → Value
  | .entry e => e.entity.name
  | .coarser e => e.name
  | .standIn words => .text words
  | .pronoun word => .text word
  | .hidden => .text []

structure Token where
  source : Text
  element : Option Element
  metadata : List Value

namespace Token

def shown (t : Token) : Value :=
  match t.element with
  | none => .text t.source
  | some e => e.name

def literal (t : Text) : Token := { source := t, element := none, metadata := [] }

end Token

structure Task where
  tokens : List Token

namespace Task

def concat? (vs : List Value) : Option Text := (vs.mapM Value.text?).map List.flatten

def text? (t : Task) : Option Text := concat? (t.tokens.map Token.shown)

def metadata (t : Task) : List Value := t.tokens.flatMap Token.metadata

end Task

inductive Failure
  | exhausted (s : Shortage)
  | oversizedNumber
  | nameNotText
  /-- A weight without a prototype was chosen. -/
  | noSuchPrototype
  deriving DecidableEq

end Errand
