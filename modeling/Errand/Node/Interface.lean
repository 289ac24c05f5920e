import Errand.Node.Options
import Errand.Tier

/-! # The interface of the node

What a graph editor is told about the node: its inputs and outputs, and the name it goes by.
-/

namespace Errand

inductive InputType
  | named (name : Text)
  | choice (labels : List Text)

structure Input where
  field : Text
  type : InputType
  settings : List (Text × Value)

structure Registration where
  className : Text
  displayName : Text
  function : Text
  category : Text
  outputTypes : List Text
  outputNames : List Text

namespace Interface

def small (tier : Tier) : Text := tier.label.map Char.toLower

def tierLabels : List Text := (Tier.all.filter (· != .none)).map small

def maxSeed : Int := 0xffffffffffffffff

def textSetting (key value : String) : Text × Value := (key.toList, .text value.toList)

def numberSetting (key : String) (value : Int) : Text × Value := (key.toList, .int value)

def inputs (o : FolderOptions) : List Input :=
  [{ field := "prototype".toList, type := .named "STRING".toList
     settings := [("multiline".toList, .bool true),
       textSetting "tooltip"
         "Task prototypes, one per line. Empty uses the catalog's prototypes.txt"] },
   { field := "seed".toList, type := .named "INT".toList
     settings := [numberSetting "default" 0, numberSetting "min" 0, numberSetting "max" maxSeed] },
   { field := "tier".toList, type := .choice tierLabels
     settings := [textSetting "default" "easy",
       textSetting "tooltip" "Hardest gestures, objects and questions allowed"] },
   { field := "count".toList, type := .named "INT".toList
     settings := [numberSetting "default" 1, numberSetting "min" 1, numberSetting "max" 100] },
   { field := "catalog".toList, type := .choice o.labels
     settings := [("default".toList, .text (o.labels.headD [])),
       ("tooltip".toList, .text FolderOptions.tooltip)] }]

def className : Text := "TaskGenerator".toList

def displayNames : List (Text × Text) := [(className, "Task Generator 🤖".toList)]

/-- What is registered, given the names that nodes are shown by. A node without one is shown by the
name it is registered under. -/
def registrations (names : List (Text × Text)) : List Registration :=
  [{ className
     displayName := ((names.find? fun n => n.1 = className).map (·.2)).getD className
     function := "generate".toList
     category := "commandgen/generation".toList
     outputTypes := ["STRING".toList, "STRING".toList]
     outputNames := ["tasks".toList, "metadata".toList] }]

end Interface

end Errand
