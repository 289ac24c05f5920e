import Errand.Node.Basic
import Errand.Node.Interface
import Mathlib.Logic.Function.Basic

/-! # Answers do not depend on what is kept

A host runs any number of nodes on one package folder. Nodes keep the catalogs that they have read, and
the package keeps the folders that were found last. Whatever is kept is what reading or looking again
would give, and a failure is not kept at all. So the answer to a call is the one that a fresh host gives.
-/

namespace Errand

namespace OptionsCache

variable {cache : OptionsCache} {base : Option Text} {found : FolderOptions}

theorem mem_of_find? (h : find? cache base = some found) : (base, found) ∈ cache := by
  obtain ⟨e, he, rfl⟩ := Option.map_eq_some_iff.mp h
  have hbase : e.1 = base := by simpa using List.find?_some he
  exact hbase ▸ List.mem_of_find?_eq_some he

theorem mem_touch {e : Option Text × FolderOptions} (h : e ∈ touch cache base found) :
    e = (base, found) ∨ e ∈ cache := by
  unfold touch at h
  exact (List.mem_cons.mp (List.mem_of_mem_take h)).imp_right fun hold => (List.mem_filter.mp hold).1

end OptionsCache

/-! ## The folders that were found -/

namespace Package

/-- The folders inside a base folder, found by looking at what is there. -/
def discovery (p : Package) : Option Text → FolderOptions
  | none => .discover p.root (p.tree.find [])
  | some base => .discover (Text.joinPath p.root base) (p.tree.lookup base)

/-- What was found before would be found again. -/
def Truthful (p : Package) : Prop := ∀ e ∈ p.cache, e.2 = p.discovery e.1

variable {p : Package}

theorem Truthful.remember (h : p.Truthful) (base : Option Text) :
    (p.remember base (p.discovery base)).1 = p.discovery base ∧
      (p.remember base (p.discovery base)).2.Truthful ∧
      (p.remember base (p.discovery base)).2.clearCache = p.clearCache := by
  have hfound : (OptionsCache.find? p.cache base).getD (p.discovery base) = p.discovery base := by
    cases hcached : OptionsCache.find? p.cache base with
    | none => rfl
    | some found => exact h _ (OptionsCache.mem_of_find? hcached)
  unfold Package.remember
  rw [hfound]
  refine ⟨rfl, ?_, rfl⟩
  intro e he
  rcases OptionsCache.mem_touch he with rfl | hold
  · rfl
  · exact h e hold

theorem Truthful.optionsIn (h : p.Truthful) (base : Text) :
    (p.optionsIn? base).1 = (if base.isPath then some (p.discovery (some base)) else none) ∧
      (p.optionsIn? base).2.Truthful ∧ (p.optionsIn? base).2.clearCache = p.clearCache := by
  obtain ⟨hfound, htruthful, hsame⟩ := h.remember (some base)
  unfold optionsIn?
  by_cases hpath : base.isPath = true
  · rw [if_pos hpath, if_pos hpath]
    exact ⟨congrArg some hfound, htruthful, hsame⟩
  · rw [if_neg hpath, if_neg hpath]
    exact ⟨rfl, h, rfl⟩

end Package

/-! ## The catalogs that were read -/

namespace Node

/-- Each catalog that the node has is what its folder would be read as again. -/
def Truthful (n : Node) (p : Package) : Prop :=
  ∀ known ∈ n.catalogs, (Catalog.load known.1 (p.find known.1)).result = .ok known.2

/-- The answer to a request when everything is looked for and read again. -/
def anew (p : Package) (r : Request) : Except NodeError Output :=
  let folder := (p.discovery none).folderFor r.catalog
  match (sourceFor r p folder).1 with
  | none => .error .prototypesNotUtf8
  | some source =>
    match (Catalog.load folder (p.find folder)).result with
    | .error e => .error (.load e)
    | .ok c => (outputOf r source c).1

variable {n : Node} {p : Package}

/-- The catalog of a folder is what the folder is read as, and the node keeps it only if there is
one. -/
theorem Truthful.catalogFor (h : n.Truthful p) (folder : Text) :
    (n.catalogFor p folder).1 = (Catalog.load folder (p.find folder)).result ∧
      (n.catalogFor p folder).2.2.Truthful p := by
  unfold Node.catalogFor
  split
  · next known hknown =>
      have hfolder : known.1 = folder := by simpa using List.find?_some hknown
      have hread := h known (List.mem_of_find?_eq_some hknown)
      rw [hfolder] at hread
      exact ⟨hread.symm, h⟩
  · split
    · next c notices hload =>
        refine ⟨by rw [hload], ?_⟩
        intro known hmem
        rcases List.mem_append.mp hmem with hold | hnew
        · exact h known hold
        · obtain rfl := List.mem_singleton.mp hnew
          rw [hload]
    · -- A failure to read leaves the node as it was.
      next e notices hload => exact ⟨by rw [hload], h⟩

theorem Truthful.generate (hn : n.Truthful p) (hp : p.Truthful) (r : Request) :
    (n.generate p r).result = anew p r ∧ (n.generate p r).node.Truthful p ∧
      (n.generate p r).package = p.options.2 := by
  have hoptions : p.options.1 = p.discovery none := (hp.remember none).1
  have hsource (folder : Text) : sourceFor r p.options.2 folder = sourceFor r p folder := rfl
  have hcatalog (folder : Text) : n.catalogFor p.options.2 folder = n.catalogFor p folder := rfl
  obtain ⟨hresult, hnode⟩ := hn.catalogFor ((p.discovery none).folderFor r.catalog)
  unfold Node.generate anew
  dsimp only
  rw [hoptions, hsource, hcatalog, ← hresult]
  rcases sourceFor r p ((p.discovery none).folderFor r.catalog) with ⟨_ | source, early⟩
  · exact ⟨rfl, hn, rfl⟩
  · rcases hread : n.catalogFor p ((p.discovery none).folderFor r.catalog) with ⟨_ | c, notices, m⟩ <;>
      rw [hread] at hnode <;> exact ⟨rfl, hnode, rfl⟩

end Node

/-! ## Calls to a host -/

structure Host where
  package : Package
  nodes : Nat → Node

namespace Host

inductive Call
  /-- A request to one of the nodes. -/
  | generate (node : Nat) (r : Request)
  | inputs
  | folderFor (label : Text)
  | options (base : Option Text)
  | clearCache

inductive Reply
  | output (result : Except NodeError Output)
  | inputs (inputs : List Input)
  | folder (folder : Text)
  /-- The folders inside a base folder; nothing if its text is no path. -/
  | options (found : Option FolderOptions)
  | done

def answer (h : Host) : Call → Reply × Host
  | .generate i r =>
    let a := (h.nodes i).generate h.package r
    (.output a.result, ⟨a.package, Function.update h.nodes i a.node⟩)
  | .inputs =>
    let (found, p) := h.package.options
    (.inputs (Interface.inputs found), { h with package := p })
  | .folderFor label =>
    let (found, p) := h.package.options
    (.folder (found.folderFor label), { h with package := p })
  | .options none =>
    let (found, p) := h.package.options
    (.options (some found), { h with package := p })
  | .options (some base) =>
    let (found, p) := h.package.optionsIn? base
    (.options found, { h with package := p })
  | .clearCache => (.done, { h with package := h.package.clearCache })

def after (h : Host) (calls : List Call) : Host := calls.foldl (fun h call => (h.answer call).2) h

def fresh (tree : FileTree) (root : Text) : Host := ⟨⟨tree, root, []⟩, fun _ => Node.fresh⟩

/-- The reply to a call when everything is looked for and read again. -/
def anew (p : Package) : Call → Reply
  | .generate _ r => .output (Node.anew p r)
  | .inputs => .inputs (Interface.inputs (p.discovery none))
  | .folderFor label => .folder ((p.discovery none).folderFor label)
  | .options none => .options (some (p.discovery none))
  | .options (some base) => .options (if base.isPath then some (p.discovery (some base)) else none)
  | .clearCache => .done

theorem anew_clearCache (p : Package) (call : Call) : anew p.clearCache call = anew p call := by
  rcases call with _ | _ | _ | (_ | base) | _ <;> rfl

/-- The host has this package folder, and all that it keeps is truthful. -/
structure Truthful (tree : FileTree) (root : Text) (h : Host) : Prop where
  folder : h.package.clearCache = ⟨tree, root, []⟩
  found : h.package.Truthful
  read : ∀ i, (h.nodes i).Truthful h.package

variable {tree : FileTree} {root : Text} {h : Host}

theorem truthful_fresh (tree : FileTree) (root : Text) : Truthful tree root (fresh tree root) := by
  refine ⟨rfl, ?_, ?_⟩
  · exact fun e he => absurd he List.not_mem_nil
  · exact fun i known hmem => absurd hmem List.not_mem_nil

theorem Truthful.withPackage (ht : Truthful tree root h) {p : Package}
    (hsame : p.clearCache = h.package.clearCache) (hp : p.Truthful) :
    Truthful tree root { h with package := p } := by
  have hfind : p.clearCache.find = h.package.clearCache.find := congrArg Package.find hsame
  change p.find = h.package.find at hfind
  refine ⟨hsame.trans ht.folder, hp, ?_⟩
  intro i known hmem
  change (Catalog.load known.1 (p.find known.1)).result = _
  rw [hfind]
  exact ht.read i known hmem

theorem Truthful.update (ht : Truthful tree root h) {n : Node} (hn : n.Truthful h.package) (i : Nat) :
    Truthful tree root { h with nodes := Function.update h.nodes i n } := by
  refine ⟨ht.folder, ht.found, fun j => ?_⟩
  by_cases hj : j = i
  · subst hj
    simpa using hn
  · simpa [hj] using ht.read j

/-- A truthful host answers each call anew, and stays truthful. -/
theorem Truthful.answer (ht : Truthful tree root h) (call : Call) :
    (h.answer call).1 = anew h.package call ∧ Truthful tree root (h.answer call).2 := by
  obtain ⟨hoptions, hcache, hsame⟩ := ht.found.remember none
  change h.package.options.1 = _ at hoptions
  have hturned : Truthful tree root { h with package := h.package.options.2 } :=
    ht.withPackage hsame hcache
  cases call with
  | generate i r =>
      obtain ⟨hresult, hnode, hpackage⟩ := (ht.read i).generate ht.found r
      refine ⟨congrArg Reply.output hresult, ?_⟩
      unfold Host.answer
      dsimp only
      rw [hpackage]
      exact (ht.update hnode i).withPackage hsame hcache
  | inputs =>
      refine ⟨?_, hturned⟩
      exact congrArg (fun found => Reply.inputs (Interface.inputs found)) hoptions
  | folderFor label =>
      refine ⟨?_, hturned⟩
      exact congrArg (fun found : FolderOptions => Reply.folder (found.folderFor label)) hoptions
  | options base =>
      cases base with
      | none => exact ⟨congrArg (fun found => Reply.options (some found)) hoptions, hturned⟩
      | some base =>
          obtain ⟨hfound, hcache, hsame⟩ := ht.found.optionsIn base
          exact ⟨congrArg Reply.options hfound, ht.withPackage hsame hcache⟩
  | clearCache => exact ⟨rfl, ht.withPackage rfl fun e he => absurd he List.not_mem_nil⟩

theorem Truthful.after (ht : Truthful tree root h) (calls : List Call) :
    Truthful tree root (h.after calls) := by
  unfold Host.after
  induction calls generalizing h with
  | nil => exact ht
  | cons call calls ih => exact ih (ht.answer call).2

/-- Whatever was called before, a call is answered as it would be as the first one: requests that
succeeded, failed or could not read a catalog, questions for folders and changes of the cache leave no
trace. -/
theorem answer_after (tree : FileTree) (root : Text) (calls : List Call) (call : Call) :
    (((fresh tree root).after calls).answer call).1 = ((fresh tree root).answer call).1 := by
  have hfresh := truthful_fresh tree root
  have hafter := hfresh.after calls
  calc (((fresh tree root).after calls).answer call).1
      = anew ((fresh tree root).after calls).package call := (hafter.answer call).1
    _ = anew ⟨tree, root, []⟩ call := by rw [← anew_clearCache, hafter.folder]
    _ = ((fresh tree root).answer call).1 := (hfresh.answer call).1.symm

end Host

end Errand
