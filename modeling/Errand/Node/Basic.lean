import Errand.Catalog.Folder
import Errand.Session.Work
import Errand.Node.Options

/-! # The task generator node

A node of a graph editor that turns prototypes into tasks, with the catalogs of a package folder. It
keeps the catalogs it has read; what it generates leaves nothing behind.
-/

namespace Errand

/-- The package folder: what is in it, how its path is written, and which folders were found. -/
structure Package where
  tree : FileTree
  root : Text
  cache : OptionsCache

namespace Package

def ofFolders (root : Text) (folders : List (Text × List (Text × FileTree))) : Package :=
  let add (tree : FileTree) (folder : Text × List (Text × FileTree)) :=
    tree.addEntries (Text.pathNames folder.1) folder.2
  { tree := folders.foldl add (.folder []), root, cache := [] }

def remember (p : Package) (base : Option Text) (now : FolderOptions) : FolderOptions × Package :=
  let found := (OptionsCache.find? p.cache base).getD now
  (found, { p with cache := OptionsCache.touch p.cache base found })

def options (p : Package) : FolderOptions × Package :=
  p.remember none (FolderOptions.discover p.root (p.tree.find []))

/-- The folders to choose from inside a base folder; nothing if the text is no path. -/
def optionsIn? (p : Package) (base : Text) : Option FolderOptions × Package :=
  if base.isPath then
    let found := FolderOptions.discover (Text.joinPath p.root base) (p.tree.lookup base)
    let (found, p) := p.remember base found
    (some found, p)
  else (none, p)

def clearCache (p : Package) : Package := { p with cache := [] }

def find (p : Package) (folder name : Text) : Found :=
  p.tree.find (Text.pathNames (folder.drop p.root.length) ++ [name])

def write (p : Package) (below : Text) (bytes : ByteArray) : Except PathError Package := do
  return { p with tree := ← p.tree.write below bytes }

def makeFolder (p : Package) (below : Text) : Except PathError Package := do
  return { p with tree := ← p.tree.makeFolder below }

def remove (p : Package) (below : Text) : Except PathError Package := do
  return { p with tree := ← p.tree.remove below }

end Package

structure Node where
  catalogs : List (Text × Catalog)

structure Request where
  prototype : Text
  seed : Int
  tier : Value
  count : Int
  catalog : Text

structure Output where
  /-- The tasks, one on each line. -/
  tasks : Text
  /-- The metadata lines of all tasks. -/
  metadata : Text
  deriving DecidableEq

inductive NodeError
  | load (e : LoadError)
  | failure (e : Failure)
  | prototypesNotUtf8

/-- An answer of a node, the notices on the way, and what the node and the package are then. -/
structure Answer where
  result : Except NodeError Output
  notices : List Notice
  node : Node
  package : Package

namespace Node

def fresh : Node := ⟨[]⟩

def catalogFor (n : Node) (p : Package) (folder : Text) :
    Except LoadError Catalog × List Notice × Node :=
  match n.catalogs.find? fun known => known.1 = folder with
  | some known => (.ok known.2, [], n)
  | none =>
    match Catalog.load folder (p.find folder) with
    | ⟨.ok c, notices⟩ => (.ok c, notices, ⟨n.catalogs ++ [(folder, c)]⟩)
    | ⟨.error e, notices⟩ => (.error e, notices, n)

def sourceFor (r : Request) (p : Package) (folder : Text) :
    Option (PrototypeSource Float) × List Notice :=
  if Text.allBlank r.prototype then
    let name := "prototypes.txt".toList
    let (list, notices) := PrototypeList.ofFile? (Text.joinPath folder name) (p.find folder name)
    (list.map .parsed, notices)
  else (some (.text r.prototype), [])

def output? (tasks : List Task) : Option Output := do
  let texts ← tasks.mapM Task.text?
  let lines ← (tasks.flatMap Task.metadata).mapM Value.text?
  return { tasks := Text.joined ['\n'] texts, metadata := Text.joined ['\n'] lines }

def outputOf (r : Request) (source : PrototypeSource Float) (c : Catalog) :
    Except NodeError Output × List Notice :=
  match generateTasks source c (Tier.ofValue r.tier) r.count.toNat { seed := r.seed } with
  | (.error e, notices) => (.error (.failure e), notices)
  | (.ok tasks, notices) =>
    match output? tasks with
    | some out => (.ok out, notices)
    | none => (.error (.failure .nameNotText), notices)

def generate (n : Node) (p : Package) (r : Request) : Answer :=
  let (options, p) := p.options
  let folder := options.folderFor r.catalog
  match sourceFor r p folder with
  | (none, notices) =>
    { result := .error .prototypesNotUtf8, notices, node := n, package := p }
  | (some source, early) =>
    match n.catalogFor p folder with
    | (.error e, notices, n) =>
      { result := .error (.load e), notices := early ++ notices, node := n, package := p }
    | (.ok c, notices, n) =>
      let (result, late) := outputOf r source c
      { result, notices := early ++ notices ++ late, node := n, package := p }

end Node

end Errand
