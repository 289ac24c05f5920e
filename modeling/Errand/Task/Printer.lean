import Errand.Task.Basic

/-! # Descriptions

An entity by its fields, in parentheses after the name of what it is; a token with all its parts; and
a task by its text.
-/

namespace Errand

/-! ## Entities -/

def recordText (title : String) (fields : List (String × Text)) : Text :=
  let parts := fields.map fun (name, value) => name.toList ++ '=' :: value
  title.toList ++ '(' :: List.intercalate ", ".toList parts ++ [')']

def choiceText (title : String) (name value : Text) : Text :=
  "<".toList ++ title.toList ++ '.' :: name ++ ": ".toList ++ value ++ ">".toList

def capitals (t : Text) : Text := t.map Char.toUpper

def flagText (b : Bool) : Text := (Value.bool b).described

def Tier.described (t : Tier) : Text :=
  choiceText "DifficultyDegree" t.label (Text.decimal t.rank)

def Gender.word : Gender → Text
  | .male => "male".toList
  | .female => "female".toList

def Gender.described (g : Gender) : Text :=
  choiceText "Gender" (capitals g.word) (Text.quoted g.word)

def Familiarity.described (f : Familiarity) : Text :=
  choiceText "ObjectType" (capitals f.word) (Text.quoted f.word)

def Category.described (c : Category) : Text :=
  recordText "Category"
    [("name", c.name.described), ("default_location", c.defaultLocation.described)]

def Room.described (r : Room) : Text := recordText "Room" [("name", r.name.described)]

def Location.described : Location → Text
  | .room r => r.described
  | .spot s => recordText "SpecificLocation"
      [("name", s.name.described), ("room", s.room.described),
        ("is_beacon", flagText s.isBeacon), ("is_placement", flagText s.isPlacement)]

def Entity.described : Entity → Text
  | .category c => c.described
  | .gesture g => recordText "Gesture" [("name", g.name.described), ("tier", g.tier.described)]
  | .location l => l.described
  | .person p => recordText "PersonName"
      [("name", p.name.described), ("gender", p.gender.described)]
  | .thing t => recordText "GPSRObject"
      [("name", t.name.described), ("category", t.category.described),
        ("type", t.familiarity.described), ("tier", t.tier.described)]
  | .question q => recordText "PredefinedQuestion"
      [("question", q.text.described), ("answer", q.answer.described),
        ("tier", q.tier.described)]

/-! ## Tasks -/

def Element.described : Element → Text
  | .entry e => e.entity.described
  | .coarser e => e.described
  | .standIn words => "Obfuscator(".toList ++ Text.quoted words ++ [')']
  | .pronoun word => "NamedTaskElement(".toList ++ Text.quoted word ++ [')']
  | .hidden => "HiddenTaskElement('')".toList

def Token.described (t : Token) : Text :=
  let element := match t.element with
    | some e => e.described
    | none => Value.null.described
  "Token(".toList ++ Text.quoted t.source ++ ", ".toList ++ element ++ ", ".toList ++
    (Value.list t.metadata).described ++ [')']

/-- A task as it is described, if everything it shows is text. -/
def Task.described? (t : Task) : Option Text :=
  t.text?.map fun text => "Task(".toList ++ Text.quoted text ++ [')']

end Errand
