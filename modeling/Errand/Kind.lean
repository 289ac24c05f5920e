import Errand.Text.Basic

/-! # Kinds of wildcards

What a wildcard may ask for, the collection of the catalog that serves it, and the narrower kinds
that a general one settles on.
-/

namespace Errand

inductive Collection
  | category
  | gesture
  | location
  | name
  | object
  | question
  deriving DecidableEq, Inhabited

namespace Collection

def label : Collection → Text
  | .category => "category".toList
  | .gesture => "gesture".toList
  | .location => "location".toList
  | .name => "name".toList
  | .object => "object".toList
  | .question => "question".toList

end Collection

inductive Kind
  | category
  | gesture
  | name
  | male
  | female
  | location
  | beacon
  | placement
  | room
  | object
  /-- An object that others resemble. -/
  | aobject
  /-- A known object. -/
  | kobject
  | question
  /-- Shows nothing. -/
  | void
  /-- A pronoun for what was mentioned before. -/
  | pron
  deriving DecidableEq, Inhabited

namespace Kind

def label : Kind → Text
  | .category => "category".toList
  | .gesture => "gesture".toList
  | .name => "name".toList
  | .male => "male".toList
  | .female => "female".toList
  | .location => "location".toList
  | .beacon => "beacon".toList
  | .placement => "placement".toList
  | .room => "room".toList
  | .object => "object".toList
  | .aobject => "aobject".toList
  | .kobject => "kobject".toList
  | .question => "question".toList
  | .void => "void".toList
  | .pron => "pron".toList

def all : List Kind :=
  [.category, .gesture, .name, .male, .female, .location, .beacon, .placement, .room, .object,
    .aobject, .kobject, .question, .void, .pron]

def ofName? (word : Text) : Option Kind := all.find? fun k => k.label = word

def collection? : Kind → Option Collection
  | .category => some .category
  | .gesture => some .gesture
  | .name | .male | .female => some .name
  | .location | .beacon | .placement | .room => some .location
  | .object | .aobject | .kobject => some .object
  | .question => some .question
  | .void | .pron => none

/-- The kinds a general kind settles on when nothing narrows it. -/
def options : Kind → List Kind
  | .name => [.male, .female]
  | .location => [.beacon, .room, .placement]
  | .object => [.kobject, .aobject]
  | _ => []

def qualifiers : List (Text × Kind) :=
  [("male".toList, .male), ("female".toList, .female), ("beacon".toList, .beacon),
    ("room".toList, .room), ("placement".toList, .placement), ("alike".toList, .aobject),
    ("known".toList, .kobject)]

def ofQualifier? (word : Text) : Option Kind :=
  (qualifiers.find? fun entry => entry.1 = word).map (·.2)

theorem ofName?_label (k : Kind) : ofName? k.label = some k := by
  cases k <;> rfl

theorem label_of_ofName? {word : Text} {k : Kind} (h : ofName? word = some k) : k.label = word := by
  simpa using List.find?_some h

end Kind

end Errand
