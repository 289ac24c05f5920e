import Errand.Proofs.Batch
import Errand.Proofs.Node.Caching
import Errand.Proofs.Session.UnbrokenLines

/-! # Outputs line by line

A node puts its tasks on lines of their own, and all their metadata lines as well. No prototype has a
line feed, because prototypes come from lines; so where the names in the catalog have none either, the
lines of the first output are the tasks, and those of the second are the metadata lines.
-/

namespace Errand

theorem forall₂_of_mapM_eq_some {α β : Type} {f : α → Option β} {xs : List α} {ys : List β}
    (h : xs.mapM f = some ys) : List.Forall₂ (fun x y => f x = some y) xs ys := by
  induction xs generalizing ys with
  | nil =>
      cases h
      exact .nil
  | cons x xs ih =>
      rw [List.mapM_cons] at h
      obtain ⟨y, hy, h⟩ := Option.bind_eq_some_iff.mp h
      obtain ⟨rest, hrest, h⟩ := Option.bind_eq_some_iff.mp h
      cases h
      exact .cons hy (ih hrest)

/-! ## What a package holds -/

theorem FileTree.find_single (n name : Text) (tree : FileTree) (place : List Text) :
    (folder [(n, tree)]).find (name :: place) = if n = name then tree.find place else .missing := by
  by_cases hname : n = name <;> simp [find, named?, hname]

theorem Package.find_onlyNames {p : Package} {folder n t : Text}
    (hplace : Text.pathNames (folder.drop p.root.length) = [n])
    (htree : p.tree = .folder [(n, .folder [(CatalogFile.names.name, .file t.toUtf8)])]) :
    p.find folder = Catalog.onlyNames t := by
  funext name
  unfold Package.find Catalog.onlyNames
  rw [hplace, htree, List.singleton_append, FileTree.find_single, if_pos rfl, FileTree.find_single]
  simp only [eq_comm, FileTree.find]

/-! ## Outputs -/

namespace Node

theorem exists_lines_of_sourceFor {r : Request} {p : Package} {folder : Text}
    {source : PrototypeSource Float} (h : (sourceFor r p folder).1 = some source) :
    ∃ ls, source.list = .ofLines ls ∧ ∀ line ∈ ls, '\n' ∉ line := by
  unfold sourceFor at h
  split at h
  · obtain ⟨list, hlist, rfl⟩ := Option.map_eq_some_iff.mp h
    unfold PrototypeList.ofFile? at hlist
    split at hlist
    · obtain ⟨t, _, rfl⟩ := Option.map_eq_some_iff.mp hlist
      exact ⟨_, rfl, fun line => Text.not_mem_of_mem_fileLines⟩
    · cases hlist
      exact ⟨[], rfl, fun line hline => absurd hline List.not_mem_nil⟩
  · cases h
    exact ⟨_, rfl, fun line => Text.not_mem_of_mem_typedLines⟩

theorem output?_eq_some {tasks : List Task} {out : Output} (h : output? tasks = some out) :
    ∃ texts lines, tasks.map Task.text? = texts.map some ∧
      tasks.flatMap Task.metadata = lines.map .text ∧
      out = { tasks := Text.joined ['\n'] texts, metadata := Text.joined ['\n'] lines } := by
  obtain ⟨texts, htexts, h⟩ := Option.bind_eq_some_iff.mp h
  obtain ⟨lines, hlines, h⟩ := Option.bind_eq_some_iff.mp h
  have hvalues := (forall₂_of_mapM_eq_some hlines).imp fun _ _ => Value.text?_eq_some.mp
  refine ⟨texts, lines, ?_, ?_, (Option.some.inj h).symm⟩
  · exact forall₂_iff_map_eq.mp (forall₂_of_mapM_eq_some htexts)
  · simpa using (forall₂_iff_map_eq (f := id)).mp hvalues

theorem splitOn_output? {tasks : List Task} {out : Output} (h : output? tasks = some out)
    (hline : ∀ task ∈ tasks, ∀ token ∈ task.tokens, token.OnOneLine) :
    (tasks ≠ [] → (out.tasks.splitOn '\n').map some = tasks.map Task.text?) ∧
      (tasks.flatMap Task.metadata ≠ [] →
        (out.metadata.splitOn '\n').map Value.text = tasks.flatMap Task.metadata) := by
  obtain ⟨texts, lines, htexts, hlines, rfl⟩ := output?_eq_some h
  dsimp only [Text.joined]
  constructor
  · intro hne
    have hfeed : ∀ text ∈ texts, '\n' ∉ text := by
      intro text hmem
      have hshown : some text ∈ tasks.map Task.text? := htexts ▸ List.mem_map_of_mem hmem
      obtain ⟨task, htask, heq⟩ := List.mem_map.mp hshown
      obtain ⟨t, ht, hfeed⟩ := Session.text?_of_onOneLine (hline task htask)
      rw [ht] at heq
      exact Option.some.inj heq ▸ hfeed
    rw [List.splitOn_intercalate '\n' hfeed, htexts]
    rintro rfl
    exact hne (List.map_eq_nil_iff.mp htexts)
  · intro hne
    have hfeed : ∀ line ∈ lines, '\n' ∉ line := by
      intro line hmem
      have hvalue : .text line ∈ tasks.flatMap Task.metadata := hlines ▸ List.mem_map_of_mem hmem
      obtain ⟨task, htask, hmem⟩ := List.mem_flatMap.mp hvalue
      obtain ⟨t, ht, hfeed⟩ := Session.metadata_of_onOneLine (hline task htask) _ hmem
      cases ht
      exact hfeed
    rw [List.splitOn_intercalate '\n' hfeed, hlines]
    rintro rfl
    exact hne hlines

/-- A request whose catalog can be read is answered with an output exactly if its prototypes can be
read and make a batch of tasks that can be put into words. -/
theorem anew_eq_ok_iff {p : Package} {r : Request} {c : Catalog} {out : Output}
    (loaded : (Catalog.load ((p.discovery none).folderFor r.catalog)
      (p.find ((p.discovery none).folderFor r.catalog))).result = .ok c) :
    anew p r = .ok out ↔
      ∃ source tasks, (sourceFor r p ((p.discovery none).folderFor r.catalog)).1 = some source ∧
        (generateTasks source c (Tier.ofValue r.tier) r.count.toNat ⟨r.seed⟩).1 = .ok tasks ∧
        output? tasks = some out := by
  unfold anew
  dsimp only
  rw [loaded]
  cases (sourceFor r p ((p.discovery none).folderFor r.catalog)).1 with
  | none => simp
  | some source =>
      dsimp only
      unfold outputOf
      rcases hbatch : generateTasks source c (Tier.ofValue r.tier) r.count.toNat ⟨r.seed⟩ with
        ⟨e | tasks, notices⟩
      · simp [hbatch]
      · cases hout : output? tasks <;> simp [hbatch, hout]

end Node

namespace Host

/-- Whatever was called before: where no name of the catalog has a line feed, an output splits at line
feeds into as many lines as tasks were asked for, the texts of the tasks in their order, as long as there
is a prototype to choose. Its metadata splits into the metadata lines of the tasks, if there are any.
The tokens of each task are made of the pieces of a prototype, and the lines that they have from
metadata texts cannot be broken further. -/
theorem outputs_by_line (tree : FileTree) (root : Text) (calls : List Call) (i : Nat) (r : Request) :
    let package := (fresh tree root).package
    let folder := (package.discovery none).folderFor r.catalog
    ∀ c out, (Catalog.load folder (package.find folder)).result = .ok c → c.NamesOnOneLine →
      1 ≤ r.count →
      (((fresh tree root).after calls).answer (.generate i r)).1 = .output (.ok out) →
      ∃ source tasks, (Node.sourceFor r package folder).1 = some source ∧
        (generateTasks source c (Tier.ofValue r.tier) r.count.toNat ⟨r.seed⟩).1 = .ok tasks ∧
        (source.list.items ≠ [] → (tasks.length : Int) = r.count ∧
          (out.tasks.splitOn '\n').map some = tasks.map Task.text?) ∧
        (tasks.flatMap Task.metadata ≠ [] →
          (out.metadata.splitOn '\n').map Value.text = tasks.flatMap Task.metadata) ∧
        ∀ task ∈ tasks, ∃ q ∈ source.list.items,
          List.Forall₂ Token.Lined task.tokens (Piece.ofSegments (Text.segments q)) := by
  intro package folder c out loaded plain positive success
  have hafter := (truthful_fresh tree root).after calls
  rw [(hafter.answer _).1, ← anew_clearCache, hafter.folder] at success
  have hanswer : Node.anew package r = .ok out := Reply.output.inj success
  obtain ⟨source, tasks, hsource, htasks, hout⟩ := (Node.anew_eq_ok_iff loaded).mp hanswer
  obtain ⟨ls, hlines, hfeed⟩ := Node.exists_lines_of_sourceFor hsource
  have hmade : ∀ task ∈ tasks, ∃ q ∈ source.list.items,
      List.Forall₂ Token.Lined task.tokens (Piece.ofSegments (Text.segments q)) ∧
        ∀ token ∈ task.tokens, token.OnOneLine := by
    intro task hmem
    obtain ⟨q, hq, dice, u, htask⟩ := exists_prototype_of_mem hlines htasks task hmem
    obtain ⟨line, hline, hfrom⟩ := PrototypeList.exists_line_of_mem_ofLines (hlines ▸ hq)
    exact ⟨q, hq, Session.lined_of_task plain (Catalog.closed_of_load loaded)
      (Session.orderly_after c dice _ []) (fun hin => hfeed line hline (hfrom _ hin)) htask⟩
  obtain ⟨htexts, hmetadata⟩ := Node.splitOn_output? hout fun task hmem =>
    (hmade task hmem).elim fun _ h => h.2.2
  refine ⟨source, tasks, hsource, htasks, ?_, hmetadata, ?_⟩
  · intro husable
    have hturns := generateTasks_turns hlines husable c (Tier.ofValue r.tier) r.count.toNat r.seed
    rw [htasks] at hturns
    have hlength : (tasks.length : Int) = r.count := by
      have hall := hturns.1
      omega
    refine ⟨hlength, htexts ?_⟩
    rintro rfl
    simp at hlength
    omega
  · intro task hmem
    obtain ⟨q, hq, hlined, _⟩ := hmade task hmem
    exact ⟨q, hq, hlined⟩

/-- A person is concealed twice, and metadata with the name has a line break behind it. -/
theorem outputs_by_line_twice :
    let names : Text := "\x7b\"male\": [\"Bob\"]\x7d".toList
    let tree : FileTree :=
      .folder [("catalogs".toList, .folder [("names.json".toList, .file names.toUtf8)])]
    let prototype : Text := "{male?}\x7bvoid meta: {male} waits\\\\here\x7d".toList
    let r : Request := { prototype, seed := 0, tier := .null, count := 2, catalog := [] }
    ∃ out, ((fresh tree "/pack".toList).answer (.generate 0 r)).1 = .output (.ok out) ∧
      out.tasks.splitOn '\n' = ["a person".toList, "a person".toList] ∧
      out.metadata.splitOn '\n' = ["Bob".toList, "Bob waits".toList, "here".toList,
        "Bob".toList, "Bob waits".toList, "here".toList] := by
  intro names tree prototype r
  let package := (fresh tree "/pack".toList).package
  let folder := (package.discovery none).folderFor r.catalog
  let c : Catalog :=
    { Catalog.empty with people := [{ name := .text "Bob".toList, gender := .male }] }
  have hfiles : package.find folder = Catalog.onlyNames names :=
    Package.find_onlyNames (by decide +kernel) rfl
  have loaded : (Catalog.load folder (package.find folder)).result = .ok c := by
    have hnames : ((Value.read names).toOption.bind fun v =>
        (Catalog.namesOf v).toOption.map fun people =>
          people.map fun p => (p.name.text?, p.gender)) = some [(some "Bob".toList, .male)] := by
      decide +kernel
    obtain ⟨people, hloaded, hpeople⟩ := Catalog.exists_load_onlyNames folder hnames
    obtain ⟨⟨name, gender⟩, rfl, hbob⟩ := List.map_eq_singleton_iff.mp hpeople
    obtain ⟨hname, hgender⟩ := Prod.mk.inj hbob
    obtain rfl : name = .text "Bob".toList := Value.text?_eq_some.mp hname
    obtain rfl : gender = .male := hgender
    rw [hfiles, hloaded]
  have plain : c.NamesOnOneLine := by
    intro k e he
    cases k <;> simp [Catalog.entities, Catalog.empty, c] at he
    subst he
    exact ⟨"Bob".toList, rfl, by decide⟩
  have hmade (dice : Dice) (tier : Tier) : ∃ task, (generateTask prototype c dice tier).1 = .ok task ∧
      task.text? = some "a person".toList ∧
      task.metadata = ["Bob".toList, "Bob waits".toList, "here".toList].map .text :=
    ⟨_, rfl, rfl, rfl⟩
  have hsource : (Node.sourceFor r package folder).1 = some (.text prototype) := rfl
  have hitems : (PrototypeSource.text prototype : PrototypeSource Float).list.items = [prototype] := by
    decide +kernel
  obtain ⟨tasks, htasks, hlength, hknown⟩ :=
    exists_tasks_of_single rfl hitems (fun dice => hmade dice (Tier.ofValue r.tier)) r.count.toNat
      r.seed
  obtain ⟨task, other, rfl⟩ := List.length_eq_two.mp hlength
  obtain ⟨htext, hmetadata⟩ := hknown task List.mem_cons_self
  obtain ⟨htext', hmetadata'⟩ := hknown other (List.mem_cons_of_mem task List.mem_cons_self)
  let out : Output :=
    { tasks := "a person\na person".toList
      metadata := "Bob\nBob waits\nhere\nBob\nBob waits\nhere".toList }
  have hout : Node.output? [task, other] = some out := by
    simp only [Node.output?, List.mapM_cons, List.mapM_nil, List.flatMap_cons, List.flatMap_nil,
      htext, htext', hmetadata, hmetadata']
    rfl
  have hanswer : Node.anew package r = .ok out :=
    (Node.anew_eq_ok_iff loaded).mpr ⟨_, _, hsource, htasks, hout⟩
  have success : ((fresh tree "/pack".toList).answer (.generate 0 r)).1 = .output (.ok out) := by
    rw [((truthful_fresh tree _).answer _).1]
    exact congrArg Reply.output hanswer
  obtain ⟨source, tasks, hfound, hbatch, hlines, hdetails, _⟩ :=
    outputs_by_line tree "/pack".toList [] 0 r c out loaded plain (by decide) success
  obtain rfl := Option.some.inj (hsource.symm.trans hfound)
  obtain rfl := Except.ok.inj (htasks.symm.trans hbatch)
  refine ⟨out, success, ?_, ?_⟩
  · have htexts := (hlines (by rw [hitems]; simp)).2
    simp only [List.map_cons, List.map_nil, htext, htext'] at htexts
    exact List.map_injective_iff.mpr (fun _ _ => Option.some.inj) htexts
  · simp only [List.flatMap_cons, List.flatMap_nil, hmetadata, hmetadata'] at hdetails
    exact List.map_injective_iff.mpr (fun _ _ => Value.text.inj) (hdetails (by simp))

end Host

end Errand
