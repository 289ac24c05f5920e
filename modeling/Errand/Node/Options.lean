import Errand.FileTree

/-! # Choice of catalog folders

The folders among which a node lets its user choose: those inside a base folder whose names start
with `catalog`. What was found is kept for the base folders asked for last.
-/

namespace Errand

def Text.before : Text → Text → Bool
  | [], _ => true
  | _ :: _, [] => false
  | a :: s, b :: t => a < b || (a = b && Text.before s t)

structure FolderOptions where
  folders : List (Text × Text)
  deriving DecidableEq

namespace FolderOptions

def standard : Text := "catalogs".toList

def labels (o : FolderOptions) : List Text := o.folders.map (·.1)

def folderFor (o : FolderOptions) (label : Text) : Text :=
  let folder? (name : Text) := (o.folders.find? fun f => f.1 = name).map (·.2)
  ((folder? label).or (folder? standard)).getD []

/-- The standard folder comes first, whether it is there or not. -/
def discover (base : Text) (found : Found) : FolderOptions :=
  let catalogs := found.entries.filter fun e => e.2.isFolder && "catalog".toList.isPrefixOf e.1
  let names := catalogs.map (·.1)
  let others := (names.mergeSort Text.before).filter (· != standard)
  { folders := (standard :: others).map fun name => (name, Text.joinPath base name) }

def tooltip : Text :=
  ("Select which catalog folder to draw names, locations, objects, gestures " ++
    "and questions from. Create alternate folders named 'catalogs_*' " ++
    "(eg. 'catalogs_arena') inside the package root.").toList

end FolderOptions

/-- The package root is asked for without naming a folder. -/
abbrev OptionsCache := List (Option Text × FolderOptions)

namespace OptionsCache

def capacity : Nat := 4

def find? (cache : OptionsCache) (base : Option Text) : Option FolderOptions :=
  (List.find? (fun e => e.1 = base) cache).map (·.2)

def touch (cache : OptionsCache) (base : Option Text) (found : FolderOptions) : OptionsCache :=
  ((base, found) :: cache.filter fun e => e.1 != base).take capacity

end OptionsCache

end Errand
