import Errand.Text.Basic

/-! # Files and folders

A tree of folders with files at its leaves. A place in it is the list of names from the top; a path
leads to a place, and may go down and up again on its way.
-/

namespace Errand

/-! ## Paths

The parts of a path stand between its slashes. An empty part and a part of one point stay in the
folder that was reached, a part of two points goes back to the folder above.
-/

/-- What keeps a path from being followed, or from being used. -/
inductive PathError
  | missing
  | notAFolder
  | isFolder
  | taken
  | malformed
  deriving DecidableEq

namespace Text

def samePart : Text := ['.']

def abovePart : Text := ['.', '.']

def isPath (t : Text) : Bool := !t.contains '\x00'

def isAbsolute (t : Text) : Bool := t.head? = some '/'

def joinPath (path below : Text) : Text :=
  if below.isAbsolute then below
  else if path.isEmpty || path.getLast? = some '/' then path ++ below
  else path ++ '/' :: below

/-- A path from the top of all folders leads out of the folder it is followed from. -/
def pathParts (path : Text) : Except PathError (List Text) :=
  if !path.isPath then .error .malformed
  else if path.isAbsolute then .error .missing
  else .ok (path.splitOn '/')

def pathNames (path : Text) : List Text :=
  (path.splitOn '/').filter fun part => !part.isEmpty && part != samePart

end Text

/-! ## Trees -/

inductive FileTree
  | file (bytes : ByteArray)
  | folder (entries : List (Text × FileTree))
  deriving Inhabited

inductive Found
  | missing
  /-- The place would be below a file. -/
  | blocked
  | folder (entries : List (Text × FileTree))
  | file (bytes : ByteArray)

def Found.entries : Found → List (Text × FileTree)
  | .folder entries => entries
  | _ => []

namespace FileTree

def named? (name : Text) : List (Text × FileTree) → Option FileTree
  | [] => none
  | (n, tree) :: rest => if n = name then some tree else named? name rest

def setEntry (name : Text) (tree : FileTree) : List (Text × FileTree) → List (Text × FileTree)
  | [] => [(name, tree)]
  | (n, old) :: rest =>
    if n = name then (n, tree) :: rest else (n, old) :: setEntry name tree rest

def entries : FileTree → List (Text × FileTree)
  | .file _ => []
  | .folder es => es

def isFolder : FileTree → Bool
  | .file _ => false
  | .folder _ => true

/-! ## Places -/

def find : FileTree → List Text → Found
  | .file bytes, [] => .file bytes
  | .folder es, [] => .folder es
  | .file _, _ :: _ => .blocked
  | .folder es, name :: place =>
    match named? name es with
    | some tree => tree.find place
    | none => .missing

def put (tree below : FileTree) : List Text → FileTree
  | [] => below
  | name :: place =>
    let next := (named? name tree.entries).getD (.folder [])
    .folder (setEntry name (next.put below place) tree.entries)

/-- The tree without what is at a place. At the top an empty folder is left. -/
def erase (tree : FileTree) : List Text → FileTree
  | [] => .folder []
  | [name] => .folder (tree.entries.filter fun e => e.1 != name)
  | name :: place =>
    match named? name tree.entries with
    | some below => .folder (setEntry name (below.erase place) tree.entries)
    | none => tree

/-- The tree with entries added to the folder at a place, which is made if there is none. -/
def addEntries (tree : FileTree) (place : List Text) (added : List (Text × FileTree)) : FileTree :=
  let known := (tree.find place).entries
  tree.put (.folder (added.foldl (fun es e => setEntry e.1 e.2 es) known)) place

/-! ## Paths -/

def follow (tree : FileTree) (place : List Text) : List Text → Except PathError (List Text)
  | [] => .ok place
  | part :: parts =>
    match tree.find place with
    | .missing => .error .missing
    | .blocked | .file _ => .error .notAFolder
    | .folder _ =>
      if part = [] || part = Text.samePart then tree.follow place parts
      else if part = Text.abovePart then
        if place.isEmpty then .error .missing else tree.follow place.dropLast parts
      else tree.follow (place ++ [part]) parts

def locate (tree : FileTree) (path : Text) : Except PathError (List Text) := do
  tree.follow [] (← Text.pathParts path)

def lookup (tree : FileTree) (path : Text) : Found :=
  match tree.locate path with
  | .ok place => tree.find place
  | .error .notAFolder => .blocked
  | .error _ => .missing

/-- The place that a path names in a folder that is there. A path that ends with a folder and not
with the name of one gives none. Slashes at the end do not count. -/
def newPlace? (tree : FileTree) (path : Text) : Except PathError (Option (List Text)) := do
  let parts ← Text.pathParts path
  match parts.reverse.dropWhile List.isEmpty with
  | [] => return none
  | last :: before =>
    let folder ← tree.follow [] (before.reverse ++ [Text.samePart])
    return if last = Text.samePart || last = Text.abovePart then none else some (folder ++ [last])

def write (tree : FileTree) (path : Text) (bytes : ByteArray) : Except PathError FileTree := do
  match ← tree.newPlace? path with
  | none => .error .isFolder
  | some place =>
    if path.getLast? = some '/' then .error .isFolder
    else match tree.find place with
      | .folder _ => .error .isFolder
      | _ => .ok (tree.put (.file bytes) place)

def makeFolder (tree : FileTree) (path : Text) : Except PathError FileTree := do
  match ← tree.newPlace? path with
  | none => .error .taken
  | some place =>
    match tree.find place with
    | .missing => .ok (tree.put (.folder []) place)
    | _ => .error .taken

def remove (tree : FileTree) (path : Text) : Except PathError FileTree := do
  let place ← tree.locate path
  match tree.find place with
  | .missing => .error .missing
  | .blocked => .error .notAFolder
  | .folder _ | .file _ => .ok (tree.erase place)

end FileTree

end Errand
