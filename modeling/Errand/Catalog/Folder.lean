import Errand.Catalog.Layout
import Errand.FileTree
import Errand.Notice
import Errand.Value.Reader

/-! # Catalog folders

A catalog is read from the files of a folder. A missing file leaves its collections empty and is
noted; any other trouble ends the reading.
-/

namespace Errand

inductive CatalogError
  | malformedFile (path : Text)
  /-- An entry of a file cannot be taken apart. -/
  | malformed (folder : Text) (defect : Defect)

inductive LoadError
  | catalog (e : CatalogError)
  | notUtf8
  | oversizedInteger
  | isFolder
  | notAFolder

namespace CatalogError

def message : CatalogError → Text
  | .malformedFile path => "Malformed catalog file ".toList ++ path
  | .malformed _ (.unknownType name type) =>
    "Unknown object type for ".toList ++ name.described ++ ": ".toList ++ type.described
  | .malformed folder (.missingField key) =>
    "Malformed catalog in ".toList ++ folder ++ ": KeyError(".toList ++ Text.quoted key ++ [')']
  | .malformed folder _ => "Malformed catalog in ".toList ++ folder

end CatalogError

namespace Catalog

/-- A reading of files: a result or an error, and the notices up to there. -/
structure Reading (α : Type) where
  result : Except LoadError α
  notices : List Notice

def Reading.bind {α β : Type} (r : Reading α) (next : α → Reading β) : Reading β :=
  match r.result with
  | .ok a => ⟨(next a).result, r.notices ++ (next a).notices⟩
  | .error e => ⟨.error e, r.notices⟩

instance : Monad Reading where
  pure a := ⟨.ok a, []⟩
  bind := Reading.bind

def readFile (folder : Text) (files : Text → Found) (f : CatalogFile) : Reading Value :=
  let path := Text.joinPath folder f.name
  match files f.name with
  | .missing => ⟨.ok .null, [.catalogFileMissing path]⟩
  | .blocked => ⟨.error .notAFolder, []⟩
  | .folder _ => ⟨.error .isFolder, []⟩
  | .file bytes =>
    match Text.ofUtf8? bytes with
    | none => ⟨.error .notUtf8, []⟩
    | some text =>
      match Value.read text with
      | .ok value => ⟨.ok value, []⟩
      | .error .malformed => ⟨.error (.catalog (.malformedFile path)), []⟩
      | .error .oversizedInteger => ⟨.error .oversizedInteger, []⟩

def takeApart {α : Type} (folder : Text) (r : Except Defect α) : Reading α :=
  ⟨r.mapError fun defect => .catalog (.malformed folder defect), []⟩

def load (folder : Text) (files : Text → Found) : Reading Catalog := do
  let (categories, things) ← takeApart folder
    (thingsOf (← readFile folder files .objects))
  let gestures ← takeApart folder (gesturesOf (← readFile folder files .gestures))
  let questions ← takeApart folder (questionsOf (← readFile folder files .questions))
  let locations ← takeApart folder (locationsOf (← readFile folder files .locations))
  let people ← takeApart folder (namesOf (← readFile folder files .names))
  return { categories, gestures, locations, people, things, questions }

end Catalog

end Errand
