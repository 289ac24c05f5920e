import Errand.Catalog.Basic
import Errand.Text.Case

/-! # The layout of catalog files

How the values of the five files make up a catalog. Nothing is checked beyond what is needed to take
a value apart: a name may be any value, a text counts as the list of its characters and an object as
the list of its keys. An entry that cannot be taken apart is a defect.
-/

namespace Errand

inductive CatalogFile
  | objects
  | gestures
  | questions
  | locations
  | names
  deriving DecidableEq

def CatalogFile.name : CatalogFile → Text
  | .objects => "objects.json".toList
  | .gestures => "gestures.json".toList
  | .questions => "questions.json".toList
  | .locations => "locations.json".toList
  | .names => "names.json".toList

def Collection.file : Collection → CatalogFile
  | .category | .object => .objects
  | .gesture => .gestures
  | .question => .questions
  | .location => .locations
  | .name => .names

inductive Defect
  | missingField (key : Text)
  /-- Entries or required fields were looked for in something that has none. -/
  | wrongShape
  /-- Optional fields were looked for in something other than an object. -/
  | notAnObject
  /-- An object is said to be recognised in a way that is not known. -/
  | unknownType (name type : Value)

namespace Value

def field? (key : Text) : List (Text × Value) → Option Value
  | [] => none
  | (k, v) :: rest => if k = key then some v else field? key rest

def required (v : Value) (key : Text) : Except Defect Value :=
  match v with
  | .object fields =>
    match field? key fields with
    | some found => .ok found
    | none => .error (.missingField key)
  | _ => .error .wrongShape

def optional (v : Value) (key : Text) (default : Value) : Except Defect Value :=
  match v with
  | .object fields => .ok ((field? key fields).getD default)
  | _ => .error .notAnObject

def entries : Value → Except Defect (List Value)
  | .list items => .ok items
  | .text t => .ok (t.map fun c => .text [c])
  | .object fields => .ok (fields.map fun field => .text field.1)
  | _ => .error .wrongShape

/-- The entries of a file; a value that counts as nothing has none. -/
def fileEntries (v : Value) : Except Defect (List Value) :=
  if v.isTruthy then v.entries else .ok []

end Value

namespace Catalog

open Value

def tierOf (entry : Value) : Except Defect Tier := do
  return Tier.ofValue (← entry.optional "tier".toList (.text "easy".toList))

def gestureOf (entry : Value) : Except Defect Gesture := do
  let name ← entry.required "name".toList
  return { name, tier := ← tierOf entry }

def questionOf (entry : Value) : Except Defect Question := do
  let text ← entry.required "question".toList
  let answer ← entry.optional "answer".toList (.text [])
  return { text, answer, tier := ← tierOf entry }

def spotOf (room : Room) (entry : Value) : Except Defect Location := do
  let name ← entry.required "name".toList
  let beacon ← entry.optional "beacon".toList (.bool false)
  let placement ← entry.optional "placement".toList (.bool false)
  return .spot { name, room, isBeacon := beacon.isTruthy, isPlacement := placement.isTruthy }

def roomOf (entry : Value) : Except Defect (List Location) := do
  let room : Room := { name := ← entry.required "room".toList }
  let places ← (← entry.optional "locations".toList (.list [])).entries
  return .room room :: (← places.mapM (spotOf room))

def thingOf (category : Category) (entry : Value) : Except Defect Thing := do
  let type ← entry.optional "type".toList (.text Familiarity.known.word)
  match Familiarity.ofWord? (Text.lower type.shown) with
  | none => throw (.unknownType (← entry.required "name".toList) type)
  | some familiarity =>
    let name ← entry.required "name".toList
    return { name, category, familiarity, tier := ← tierOf entry }

def categoryOf (entry : Value) : Except Defect (Category × List Thing) := do
  let name ← entry.required "category".toList
  let category : Category := { name, defaultLocation := ← entry.optional "location".toList .null }
  let things ← (← entry.optional "objects".toList (.list [])).entries
  return (category, ← things.mapM (thingOf category))

def peopleOf (gender : Gender) (key : Text) (file : Value) : Except Defect (List Person) := do
  let names ← (← file.optional key (.list [])).entries
  return names.map fun name => { name, gender }

def gesturesOf (file : Value) : Except Defect (List Gesture) := do
  (← file.fileEntries).mapM gestureOf

def questionsOf (file : Value) : Except Defect (List Question) := do
  (← file.fileEntries).mapM questionOf

def locationsOf (file : Value) : Except Defect (List Location) := do
  return (← (← file.fileEntries).mapM roomOf).flatten

/-- The file of objects: the categories, and the objects of all of them. -/
def thingsOf (file : Value) : Except Defect (List Category × List Thing) := do
  let groups ← (← file.fileEntries).mapM categoryOf
  return (groups.map (·.1), (groups.map (·.2)).flatten)

def namesOf (file : Value) : Except Defect (List Person) := do
  if file.isTruthy then
    let males ← peopleOf .male "male".toList file
    let females ← peopleOf .female "female".toList file
    return males ++ females
  else return []

end Catalog

end Errand
