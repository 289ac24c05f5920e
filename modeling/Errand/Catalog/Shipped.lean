import Errand.FileTree
import Errand.Catalog.Folder
import Errand.Value.Writer

/-! # The shipped catalog

The catalog that comes with the library, as the values of its files and as a folder.
-/

namespace Errand.Shipped

open Value

def names : Value :=
  let males := ["James", "Michael", "Robert", "John", "William", "David", "Thomas", "Charles"]
  let females :=
    ["Mary", "Patricia", "Jennifer", "Linda", "Elizabeth", "Barbara", "Susan", "Jessica"]
  record [("male", .list (males.map string)), ("female", .list (females.map string))]

def spot (name : String) (flags : List String) : Value :=
  record (("name", string name) :: flags.map fun flag => (flag, .bool true))

def room (name : String) (spots : List Value) : Value :=
  record [("room", string name), ("locations", .list spots)]

def locations : Value :=
  .list
    [room "kitchen"
        [spot "fridge" ["beacon", "placement"],
          spot "kitchen table" ["beacon", "placement"],
          spot "sink" ["beacon"],
          spot "cupboard" ["placement"]],
      room "living room"
        [spot "couch" ["beacon", "placement"],
          spot "bookcase" ["beacon", "placement"],
          spot "tv stand" ["placement"],
          spot "entrance" ["beacon"]],
      room "bedroom"
        [spot "bed" ["beacon", "placement"],
          spot "desk" ["beacon", "placement"],
          spot "side table" ["placement"]],
      room "dining room"
        [spot "dining table" ["beacon", "placement"],
          spot "cabinet" ["beacon", "placement"]]]

def thing (name type tier : String) : Value :=
  record [("name", string name), ("type", string type), ("tier", string tier)]

def category (name location : String) (things : List Value) : Value :=
  record [("category", string name), ("location", string location), ("objects", .list things)]

def objects : Value :=
  .list
    [category "drinks" "fridge"
        [thing "coke" "known" "easy",
          thing "orange juice" "known" "easy",
          thing "water" "alike" "moderate",
          thing "sparkling water" "alike" "high"],
      category "snacks" "kitchen table"
        [thing "chips" "known" "easy",
          thing "pringles" "known" "moderate",
          thing "cookies" "alike" "moderate"],
      category "fruits" "dining table"
        [thing "apple" "known" "easy",
          thing "orange" "alike" "easy",
          thing "banana" "known" "easy"],
      category "cleaning stuff" "cupboard"
        [thing "sponge" "known" "easy",
          thing "cloth" "alike" "moderate",
          thing "soap" "known" "high"],
      category "containers" "bookcase"
        [thing "bowl" "known" "easy",
          thing "tray" "alike" "high"]]

def gesture (name tier : String) : Value := record [("name", string name), ("tier", string tier)]

def gestures : Value :=
  .list
    [gesture "waving" "easy",
      gesture "raising their left arm" "easy",
      gesture "raising their right arm" "easy",
      gesture "pointing to the left" "moderate",
      gesture "pointing to the right" "moderate",
      gesture "calling" "high"]

def question (question answer tier : String) : Value :=
  record [("question", string question), ("answer", string answer), ("tier", string tier)]

def questions : Value :=
  .list
    [question "What day is today?" "The current day"
        "easy",
      question "What time is it?" "The current time"
        "easy",
      question "What is the capital of Japan?" "Tokyo"
        "easy",
      question "Who invented the C programming language?" "Dennis Ritchie"
        "moderate",
      question "How many legs does a spider have?" "Eight"
        "moderate",
      question "What is the name of the robot in the movie Wall-E?" "Wall-E"
        "high"]

def prototypes : List String :=
  ["# Task prototypes, one per line. %w% sets the weight of a line.",
    "go to the \x7broom 1\x7d, find \x7bname 1\x7d and answer \x7bpron\x7d \x7bquestion\x7d",
    "bring me the \x7bobject 1\x7d from the \x7bplacement 1\x7d %2%",
    "take the \x7bkobject\x7d from the \x7bplacement 1\x7d and put it on the \x7bplacement 2\x7d",
    "locate \x7bname 1\x7d at the \x7bbeacon 1\x7d and follow \x7bpron\x7d " ++
      "\x7bvoid meta: \x7bname 1\x7d waits at the \x7bbeacon 1\x7d\x7d",
    "find the person \x7bgesture\x7d in the \x7broom\x7d and introduce yourself",
    "count the \x7bcategory\x7d on the \x7bplacement 1\x7d",
    "tell me how many \x7bobject?\x7d there are on the \x7bplacement 1\x7d"]

def valueFile (v : Value) : FileTree := .file (Text.toUtf8 v.written)

def files : List (Text × FileTree) :=
  [(CatalogFile.names.name, valueFile names), (CatalogFile.locations.name, valueFile locations),
    (CatalogFile.objects.name, valueFile objects), (CatalogFile.gestures.name, valueFile gestures),
    (CatalogFile.questions.name, valueFile questions),
    ("prototypes.txt".toList,
      .file (Text.toUtf8 (prototypes.flatMap fun line => line.toList ++ ['\n'])))]

end Errand.Shipped
