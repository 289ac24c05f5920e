import Errand.Proofs.Node.OutputLines
import Errand.Proofs.Prototype.Writing

/-! # Prototypes typed and prototypes in a file

Typed text ends its lines at every line separator, a file at line feeds and carriage returns only. So
typed text is read as the file would be whose lines are broken again at the other separators. Where these
stand only in the white space at the ends of lines, both give the same prototypes, and a node answers a
request that types a text as it answers one that finds the text in the folder of the catalog.
-/

namespace Errand

namespace Text

/-! ## Lines and separators -/

theorem prependChar_eq (c : Char) (lines : List Text) :
    prependChar c lines = (c :: lines.headD []) :: lines.tail := by
  cases lines <;> rfl

/-- Lines are what stands between line ends, as far as lines without a character do not count. -/
theorem flatMap_breakAt {isEnd : Char → Bool} (hfeed : isEnd '\n' = true) {α : Type}
    {g : Text → List α} (hg : g [] = []) (t : Text) :
    (breakAt isEnd t).flatMap g = (t.splitOnP fun c => c = '\r' || isEnd c).flatMap g := by
  have hparts (lines : List Text) : lines.flatMap g = g (lines.headD []) ++ lines.tail.flatMap g := by
    cases lines <;> simp [hg]
  have hsame : (breakAt isEnd t).headD [] = (t.splitOnP fun c => c = '\r' || isEnd c).headD [] ∧
      (breakAt isEnd t).tail.flatMap g =
        (t.splitOnP fun c => c = '\r' || isEnd c).tail.flatMap g := by
    fun_induction breakAt isEnd t with
    | case1 => simp
    | case2 t ih =>
        simp only [List.splitOnP_cons_eq_if_modifyHead, hfeed]
        simp only [decide_true, Bool.true_or, Bool.or_true, if_true, List.headD_cons, List.tail_cons,
          true_and, List.flatMap_cons, hg, List.nil_append]
        rw [hparts, ih.1, ih.2, ← hparts]
    | case3 c t _ hend ih =>
        rw [List.splitOnP_cons_eq_if_modifyHead, if_pos hend]
        simp only [List.headD_cons, List.tail_cons, true_and]
        rw [hparts, ih.1, ih.2, ← hparts]
    | case4 c t _ hin ih =>
        obtain ⟨piece, pieces, hpieces⟩ := List.exists_cons_of_ne_nil
          (List.splitOnP_ne_nil (fun c => c = '\r' || isEnd c) t)
        rw [hpieces] at ih
        rw [List.splitOnP_cons_eq_if_modifyHead, if_neg hin, hpieces, List.modifyHead_cons,
          prependChar_eq, ih.1]
        exact ⟨rfl, ih.2⟩
  rw [hparts, hsame.1, hsame.2, ← hparts]

theorem splitOnP_flatMap {p q : Char → Bool} (h : ∀ c, p c = true → q c = true) (t : Text) :
    t.splitOnP q = (t.splitOnP p).flatMap (List.splitOnP q) := by
  induction t with
  | nil => simp
  | cons c t ih =>
      obtain ⟨l, ls, hl⟩ := List.exists_cons_of_ne_nil (List.splitOnP_ne_nil p t)
      obtain ⟨k, ks, hk⟩ := List.exists_cons_of_ne_nil (List.splitOnP_ne_nil q l)
      rw [List.splitOnP_cons_eq_if_modifyHead, List.splitOnP_cons_eq_if_modifyHead, ih, hl]
      by_cases hp : p c = true
      · simp [hp, h c hp]
      · by_cases hq : q c = true <;>
          simp [hp, hq, List.splitOnP_cons_eq_if_modifyHead, hk]

theorem flatMap_fileLines {α : Type} {g : Text → List α} (hg : g [] = []) (t : Text) :
    (fileLines t).flatMap g = (t.splitOnP fun c => c = '\r' || decide (c = '\n')).flatMap g :=
  flatMap_breakAt (by decide) hg t

theorem flatMap_typedLines {α : Type} {g : Text → List α} (hg : g [] = []) (t : Text) :
    (typedLines t).flatMap g = (t.splitOnP fun c => c = '\r' || isLineEnd c).flatMap g :=
  flatMap_breakAt (by decide) hg t

end Text

namespace Prototype

open Text

/-! ## Lines broken again -/

def onLine (line : Text) : List Prototype := (ofLine? line).toList

theorem ofLines_eq_flatMap (lines : List Text) : ofLines lines = lines.flatMap onLine :=
  List.filterMap_eq_flatMap_toList ofLine? lines

theorem onLine_nil : onLine [] = [] := rfl

theorem onLine_blank_append {x y : Text} (hx : Blank x) (hy : Blank y) (t : Text) :
    onLine (x ++ t ++ y) = onLine t := by
  unfold onLine ofLine?
  rw [strip_blank_append hx hy]

/-- Typed text is read as the file whose lines are broken again at the separators that do not end a
line there. -/
theorem ofLines_typedLines (t : Text) :
    ofLines (typedLines t) = (fileLines t).flatMap fun line => ofLines (typedLines line) := by
  have hends (c : Char) (h : (c = '\r' || decide (c = '\n')) = true) :
      (c = '\r' || isLineEnd c) = true := by
    simp only [Bool.or_eq_true, decide_eq_true_eq] at h
    rcases h with rfl | rfl <;> decide
  have hline (line : Text) : ofLines (typedLines line) =
      (line.splitOnP fun c => c = '\r' || isLineEnd c).flatMap onLine := by
    rw [ofLines_eq_flatMap, flatMap_typedLines onLine_nil]
  rw [flatMap_fileLines rfl, hline, splitOnP_flatMap hends, List.flatMap_assoc]
  exact (List.flatMap_congr fun line _ => hline line).symm

theorem flatMap_onLine_blank_append {p : Char → Bool} {x : Text} (hx : Blank x) (t : Text) :
    ((x ++ t).splitOnP p).flatMap onLine = (t.splitOnP p).flatMap onLine := by
  induction x with
  | nil => rfl
  | cons c x ih =>
      have hc : Blank [c] := by simpa [Blank] using hx c List.mem_cons_self
      have hrest : Blank x := fun d hd => hx d (List.mem_cons_of_mem c hd)
      rw [List.cons_append, List.splitOnP_cons_eq_if_modifyHead, ← ih hrest]
      split
      · rw [List.flatMap_cons, onLine_nil, List.nil_append]
      · obtain ⟨line, lines, hlines⟩ := List.exists_cons_of_ne_nil (List.splitOnP_ne_nil p (x ++ t))
        have hline : onLine (c :: line) = onLine line := by
          simpa using onLine_blank_append hc blank_nil line
        rw [hlines, List.modifyHead_cons, List.flatMap_cons, List.flatMap_cons, hline]

theorem flatMap_onLine_append_blank {p : Char → Bool} {s y : Text} (hs : ∀ c ∈ s, p c = false)
    (hy : Blank y) : ((s ++ y).splitOnP p).flatMap onLine = onLine s := by
  have hback {z : Text} (hz : Blank z) : onLine (s ++ z) = onLine s := by
    simpa using onLine_blank_append blank_nil hz s
  have hfront {z : Text} (hz : ∀ c ∈ z, p c = false) : ∀ c ∈ s ++ z, p c = false :=
    fun c hc => (List.mem_append.mp hc).elim (hs c) (hz c)
  cases hfirst : y.find? p with
  | none =>
      have hnone : ∀ c ∈ y, p c = false := by simpa using List.find?_eq_none.mp hfirst
      rw [List.splitOnP_eq_singleton (hfront hnone), List.flatMap_singleton, hback hy]
  | some c =>
      obtain ⟨hc, before, after, rfl, hbefore⟩ := List.find?_eq_some_iff_append.mp hfirst
      have hnone : ∀ c ∈ before, p c = false := by simpa using hbefore
      have hleft : Blank before := fun c hc => hy c (List.mem_append_left _ hc)
      have hright : Blank after := fun c hc => hy c (by simp [hc])
      have hrest : (after.splitOnP p).flatMap onLine = [] := by
        simpa [onLine_nil] using flatMap_onLine_blank_append (p := p) hright []
      rw [← List.append_assoc, List.splitOnP_append_cons_of_forall_mem (hfront hnone) c hc,
        List.flatMap_cons, hback hleft, hrest, List.append_nil]

theorem ofLines_typedLines_of_strip {line : Text} (h : ∀ c ∈ strip line, isLineEnd c = false) :
    ofLines (typedLines line) = onLine line := by
  obtain ⟨x, y, hx, hy, hline⟩ := exists_blank_append_strip line
  have hinside : ∀ c ∈ strip line, (c = '\r' || isLineEnd c) = false := by
    intro c hc
    have hreturn : c ≠ '\r' := by
      rintro rfl
      exact absurd (h _ hc) (by decide)
    simp [hreturn, h c hc]
  rw [ofLines_eq_flatMap, flatMap_typedLines onLine_nil]
  conv_lhs => rw [hline, List.append_assoc]
  conv_rhs => rw [hline]
  rw [flatMap_onLine_blank_append hx, flatMap_onLine_append_blank hinside hy,
    onLine_blank_append hx hy]

end Prototype

/-! ## Lists of prototypes -/

section

variable {W : Type} [Weight W]

theorem PrototypeList.ofFile?_text (path t : Text) :
    (ofFile? path (.file t.toUtf8) : Option (PrototypeList W) × List Notice) =
      (some (.ofLines (Text.fileLines t)), []) := by
  unfold ofFile?
  dsimp only
  rw [Text.ofUtf8?_toUtf8]
  rfl

theorem PrototypeList.ofLines_congr {lines others : List Text}
    (h : Prototype.ofLines lines = Prototype.ofLines others) :
    (ofLines lines : PrototypeList W) = ofLines others := by
  unfold ofLines
  rw [h]

theorem PrototypeSource.choose_congr {source other : PrototypeSource W}
    (h : source.list = other.list) (dice : Dice) : source.choose dice = other.choose dice := by
  unfold choose
  rw [h]

theorem generateTasks_congr {source other : PrototypeSource W} (h : source.list = other.list)
    (c : Catalog) (tier : Tier) (n : Nat) (batch : Dice) :
    generateTasks source c tier n batch = generateTasks other c tier n batch := by
  induction n generalizing batch with
  | zero => rfl
  | succ n ih =>
      unfold generateTasks
      simp only [PrototypeSource.choose_congr h, ih]

end

/-! ## Requests -/

namespace Node

theorem sourceFor_file {r : Request} {p : Package} {folder t : Text} (hblank : Text.allBlank r.prototype)
    (hfile : p.find folder "prototypes.txt".toList = .file t.toUtf8) :
    sourceFor r p folder = (some (.parsed (.ofLines (Text.fileLines t))), []) := by
  unfold sourceFor
  rw [if_pos hblank]
  dsimp only
  rw [hfile, PrototypeList.ofFile?_text]
  rfl

theorem generate_congr {n : Node} {p : Package} {r : Request} {prototype : Text}
    {source other : PrototypeSource Float} (hlist : source.list = other.list)
    (hsource : sourceFor r p.options.2 (p.options.1.folderFor r.catalog) = (some source, []))
    (hother : sourceFor { r with prototype } p.options.2 (p.options.1.folderFor r.catalog) =
      (some other, [])) : n.generate p r = n.generate p { r with prototype } := by
  have houtput (c : Catalog) : outputOf r source c = outputOf { r with prototype } other c := by
    unfold outputOf
    rw [generateTasks_congr hlist]
  unfold Node.generate
  dsimp only
  rw [hsource, hother]
  simp only [houtput]

end Node

/-- The prototypes of a file are those on its lines, and those of a typed text are the ones on the lines
of the file, broken again at the other separators. So where these stand only in the white space at the
ends of lines the prototypes are the same with the same weights, and a node gives one answer to a request
that types the text and to a request that finds it in the folder of the catalog. -/
theorem typed_or_read {W : Type} [Weight W] (t : Text) :
    (∀ path, (PrototypeList.ofFile? path (.file t.toUtf8) :
      Option (PrototypeList W) × List Notice) = (some (.ofLines (Text.fileLines t)), [])) ∧
    (PrototypeSource.text t : PrototypeSource W).list =
      .ofLines ((Text.fileLines t).flatMap Text.typedLines) ∧
    ((∀ line ∈ Text.fileLines t, ∀ c ∈ Text.strip line, Text.isLineEnd c = false) →
      (PrototypeSource.text t : PrototypeSource W).list = .ofLines (Text.fileLines t) ∧
      ∀ (n : Node) (p : Package) (r : Request) (blank : Text), r.prototype = t →
        Text.allBlank blank →
        p.find (p.options.1.folderFor r.catalog) "prototypes.txt".toList = .file t.toUtf8 →
        n.generate p r = n.generate p { r with prototype := blank }) := by
  have hbroken : Prototype.ofLines (Text.typedLines t) =
      Prototype.ofLines ((Text.fileLines t).flatMap Text.typedLines) := by
    rw [Prototype.ofLines_typedLines, Prototype.ofLines_eq_flatMap, List.flatMap_assoc]
    simp only [Prototype.ofLines_eq_flatMap]
  refine ⟨fun path => PrototypeList.ofFile?_text path t, PrototypeList.ofLines_congr hbroken, ?_⟩
  intro hends
  have hread : Prototype.ofLines (Text.typedLines t) = Prototype.ofLines (Text.fileLines t) := by
    rw [Prototype.ofLines_typedLines, Prototype.ofLines_eq_flatMap]
    exact List.flatMap_congr fun line hline => Prototype.ofLines_typedLines_of_strip (hends line hline)
  refine ⟨PrototypeList.ofLines_congr hread, ?_⟩
  rintro n p r blank rfl hblank hfile
  have hother := Node.sourceFor_file (r := { r with prototype := blank }) (p := p.options.2) hblank hfile
  by_cases htyped : Text.allBlank r.prototype
  · exact Node.generate_congr rfl (Node.sourceFor_file (p := p.options.2) htyped hfile) hother
  · have hlist : (PrototypeSource.text r.prototype : PrototypeSource Float).list =
        (PrototypeSource.parsed (.ofLines (Text.fileLines r.prototype))).list :=
      PrototypeList.ofLines_congr hread
    exact Node.generate_congr hlist (if_neg htyped) hother

/-- A line separator and a form feed behind prototypes, one of which has a weight. -/
theorem typed_or_read_separated :
    let t : Text := "# all\r\ngo %2%\u2028\nwait\x0c".toList
    let tree : FileTree :=
      .folder [("catalogs".toList, .folder [("prototypes.txt".toList, .file t.toUtf8)])]
    let p : Package := { tree, root := "/pack".toList, cache := [] }
    let r : Request := { prototype := t, seed := 0, tier := .null, count := 2, catalog := [] }
    (PrototypeSource.text t : PrototypeSource ExactWeight).list =
        .ofLines ["# all".toList, "go %2%\u2028".toList, "wait\x0c".toList] ∧
      Node.fresh.generate p r = Node.fresh.generate p { r with prototype := [] } := by
  intro t tree p r
  have hlines : Text.fileLines t = ["# all".toList, "go %2%\u2028".toList, "wait\x0c".toList] := rfl
  have hends : ∀ line ∈ Text.fileLines t, ∀ c ∈ Text.strip line, Text.isLineEnd c = false := by
    have hall : (Text.fileLines t).all (fun line => (Text.strip line).all (!Text.isLineEnd ·)) := by
      rw [hlines]
      decide +kernel
    simpa using hall
  have hfile : p.find (p.options.1.folderFor r.catalog) "prototypes.txt".toList = .file t.toUtf8 := by
    have hplace : Text.pathNames ((p.options.1.folderFor r.catalog).drop p.root.length) =
        ["catalogs".toList] := by decide +kernel
    unfold Package.find
    rw [hplace, List.singleton_append, FileTree.find_single, if_pos rfl, FileTree.find_single,
      if_pos rfl]
    rfl
  obtain ⟨hlist, hanswer⟩ := (typed_or_read (W := ExactWeight) t).2.2 hends
  rw [hlines] at hlist
  exact ⟨hlist, hanswer Node.fresh p r [] rfl rfl hfile⟩

/-- A line separator breaks a typed prototype in two that is one in a file. -/
theorem typed_separator_breaks_prototype :
    let t : Text := "go\u2028wait".toList
    let read := (PrototypeList.ofFile? [] (.file t.toUtf8) :
      Option (PrototypeList Float) × List Notice).1
    read ≠ some (PrototypeSource.text t).list ∧
      read.map (·.items) = some ["go\u2028wait".toList] ∧
      (PrototypeSource.text t : PrototypeSource Float).list.items = ["go".toList, "wait".toList] := by
  intro t read
  have hread : read.map (·.items) = some ["go\u2028wait".toList] := by
    change (PrototypeList.ofFile? [] (.file t.toUtf8)).1.map (·.items) = _
    rw [PrototypeList.ofFile?_text]
    decide +kernel
  have htyped : (PrototypeSource.text t : PrototypeSource Float).list.items =
      ["go".toList, "wait".toList] := by decide +kernel
  refine ⟨?_, hread, htyped⟩
  intro hsame
  rw [hsame, Option.map_some, htyped] at hread
  exact absurd hread (by decide)

end Errand
