import Errand.Text.Basic

/-! # Catalog values

What a catalog file, which is written in JSON, may hold at any place. Whole numbers and floats are
different values, and the entries of an object stand in the order in which their keys were first
written.
-/

namespace Errand

inductive Value
  | null
  | bool (b : Bool)
  | int (n : Int)
  | float (x : Float)
  | text (t : Text)
  | list (items : List Value)
  | object (fields : List (Text × Value))
  deriving Inhabited

namespace Value

def string (s : String) : Value := .text s.toList

def record (fields : List (String × Value)) : Value :=
  .object (fields.map fun field => (field.1.toList, field.2))

def text? : Value → Option Text
  | .text t => some t
  | _ => none

def isTruthy : Value → Bool
  | .null => false
  | .bool b => b
  | .int n => n != 0
  | .float x => x != 0
  | .text t => !t.isEmpty
  | .list items => !items.isEmpty
  | .object fields => !fields.isEmpty

def insertField (key : Text) (value : Value) : List (Text × Value) → List (Text × Value)
  | [] => [(key, value)]
  | (k, v) :: rest =>
    if k = key then (k, value) :: rest else (k, v) :: insertField key value rest

/-- Of a repeated key the last value counts. -/
def ofFields (fields : List (Text × Value)) : Value :=
  .object (fields.foldl (fun known field => insertField field.1 field.2 known) [])

end Value

end Errand
