import Errand.Proofs.Catalog.Writing
import Errand.Proofs.Value.LongNumbers

/-! # What a folder is refused for

The files of a folder are read one after the other, and the first one that gives trouble decides what
the folder is refused for. A file that is not written in the notation, or whose value cannot be taken
apart, makes a catalog error, wherever in the file the trouble lies. Bytes that are no text and numbers
with too many digits are reported in ways of their own.
-/

namespace Errand

theorem Text.ofUtf8?_eq_some {bytes : ByteArray} {t : Text} :
    ofUtf8? bytes = some t ↔ bytes = t.toUtf8 := by
  constructor
  · intro h
    unfold ofUtf8? String.fromUTF8? at h
    split at h
    · next hvalid =>
        obtain rfl : (String.fromUTF8 bytes hvalid).toList = t := Option.some.inj h
        unfold toUtf8
        rw [String.ofList_toList]
        rfl
    · cases h
  · rintro rfl
    exact ofUtf8?_toUtf8 t

def failure? {ε α : Type} : Except ε α → Option ε
  | .ok _ => none
  | .error e => some e

section

variable {ε α : Type} {x : Except ε α}

theorem failure?_eq_some {e : ε} : failure? x = some e ↔ x = .error e := by
  cases x <;> simp [failure?]

theorem failure?_eq_none : failure? x = none ↔ ∃ a, x = .ok a := by
  cases x <;> simp [failure?]

end

/-! ## Files -/

namespace CatalogFile

def inOrder : List CatalogFile := [.objects, .gestures, .questions, .locations, .names]

theorem mem_inOrder (f : CatalogFile) : f ∈ inOrder := by
  cases f <;> decide

def defect? : CatalogFile → Value → Option Defect
  | .objects, v => failure? (Catalog.thingsOf v)
  | .gestures, v => failure? (Catalog.gesturesOf v)
  | .questions, v => failure? (Catalog.questionsOf v)
  | .locations, v => failure? (Catalog.locationsOf v)
  | .names, v => failure? (Catalog.namesOf v)

theorem defect?_null (f : CatalogFile) : f.defect? .null = none := by
  cases f <;> rfl

/-- The file is left out, or it is written in the notation and its value can be taken apart. -/
inductive Understood (f : CatalogFile) : Found → Prop
  | leftOut : f.Understood .missing
  | written {t : Text} {v : Value} (hread : Value.read t = .ok v) (hparts : f.defect? v = none) :
      f.Understood (.file t.toUtf8)

/-- Reading comes to the file: those that are read before it are understood. -/
def ReachedIn (f : CatalogFile) (files : Text → Found) : Prop :=
  ∃ before after, inOrder = before ++ f :: after ∧ ∀ g ∈ before, g.Understood (files g.name)

/-- What may be wrong with a file of a folder, and what the folder is refused for then. -/
inductive Trouble (folder : Text) (f : CatalogFile) : Found → LoadError → Prop
  | blocked : Trouble folder f .blocked .notAFolder
  | folder {entries : List (Text × FileTree)} : Trouble folder f (.folder entries) .isFolder
  | notText {bytes : ByteArray} (hbytes : ∀ t : Text, bytes ≠ t.toUtf8) :
      Trouble folder f (.file bytes) .notUtf8
  | longNumber {t : Text} (hread : Value.read t = .error .oversizedInteger) :
      Trouble folder f (.file t.toUtf8) .oversizedInteger
  | malformed {t : Text} (hread : Value.read t = .error .malformed) :
      Trouble folder f (.file t.toUtf8) (.catalog (.malformedFile (Text.joinPath folder f.name)))
  | defect {t : Text} {v : Value} {d : Defect} (hread : Value.read t = .ok v)
      (hparts : f.defect? v = some d) :
      Trouble folder f (.file t.toUtf8) (.catalog (.malformed folder d))

/-- The bytes are no text, or a number in the text is too long. -/
inductive Illegible : Found → Prop
  | notText {bytes : ByteArray} (hbytes : ∀ t : Text, bytes ≠ t.toUtf8) : Illegible (.file bytes)
  | longNumber {t : Text} (hrun : t.HasLongRun) (hread : Value.read t = .error .oversizedInteger) :
      Illegible (.file t.toUtf8)

end CatalogFile

namespace Catalog

open CatalogFile

variable {folder : Text} {files : Text → Found} {f : CatalogFile} {e : LoadError}

def trouble? (folder : Text) (files : Text → Found) (f : CatalogFile) : Option LoadError :=
  match (readFile folder files f).result with
  | .error e => some e
  | .ok v => (f.defect? v).map fun d => .catalog (.malformed folder d)

theorem trouble?_of_text {t : Text} (hfile : files f.name = .file t.toUtf8) :
    trouble? folder files f = match Value.read t with
      | .ok v => (f.defect? v).map fun d => .catalog (.malformed folder d)
      | .error .malformed => some (.catalog (.malformedFile (Text.joinPath folder f.name)))
      | .error .oversizedInteger => some .oversizedInteger := by
  unfold trouble? readFile
  rw [hfile]
  dsimp only
  rw [Text.ofUtf8?_toUtf8]
  dsimp only
  cases Value.read t with
  | ok v => rfl
  | error flaw => cases flaw <;> rfl

theorem trouble?_of_understood (h : f.Understood (files f.name)) :
    trouble? folder files f = none := by
  generalize hfile : files f.name = found at h
  cases h with
  | leftOut => simp [trouble?, readFile_of_missing hfile, defect?_null]
  | written hread hparts => simp [trouble?_of_text hfile, hread, hparts]

theorem trouble?_of_trouble (h : f.Trouble folder (files f.name) e) :
    trouble? folder files f = some e := by
  generalize hfile : files f.name = found at h
  cases h with
  | blocked => simp [trouble?, readFile, hfile]
  | folder => simp [trouble?, readFile, hfile]
  | @notText bytes hbytes =>
      have hnone : Text.ofUtf8? bytes = none :=
        Option.eq_none_iff_forall_ne_some.mpr fun t ht => hbytes t (Text.ofUtf8?_eq_some.mp ht)
      simp [trouble?, readFile, hfile, hnone]
  | longNumber hread => simp [trouble?_of_text hfile, hread]
  | malformed hread => simp [trouble?_of_text hfile, hread]
  | defect hread hparts => simp [trouble?_of_text hfile, hread, hparts]

theorem understood_or_trouble (folder : Text) (f : CatalogFile) (found : Found) :
    f.Understood found ∨ ∃ e, f.Trouble folder found e := by
  cases found with
  | missing => exact .inl .leftOut
  | blocked => exact .inr ⟨_, .blocked⟩
  | folder entries => exact .inr ⟨_, .folder⟩
  | file bytes =>
      by_cases htext : ∃ t : Text, bytes = t.toUtf8
      · obtain ⟨t, rfl⟩ := htext
        cases hread : Value.read t with
        | error flaw =>
            cases flaw with
            | malformed => exact .inr ⟨_, .malformed hread⟩
            | oversizedInteger => exact .inr ⟨_, .longNumber hread⟩
        | ok v =>
            cases hparts : f.defect? v with
            | none => exact .inl (.written hread hparts)
            | some d => exact .inr ⟨_, .defect hread hparts⟩
      · exact .inr ⟨_, .notText (not_exists.mp htext)⟩

theorem trouble?_eq_some : trouble? folder files f = some e ↔ f.Trouble folder (files f.name) e := by
  refine ⟨fun h => ?_, trouble?_of_trouble⟩
  rcases understood_or_trouble folder f (files f.name) with hfine | ⟨other, htrouble⟩
  · rw [trouble?_of_understood hfine] at h
    cases h
  · rw [trouble?_of_trouble htrouble] at h
    cases h
    exact htrouble

theorem trouble?_eq_none : trouble? folder files f = none ↔ f.Understood (files f.name) := by
  refine ⟨fun h => ?_, trouble?_of_understood⟩
  rcases understood_or_trouble folder f (files f.name) with hfine | ⟨other, htrouble⟩
  · exact hfine
  · rw [trouble?_of_trouble htrouble] at h
    cases h

/-! ## Folders -/

theorem failure?_file {α β : Type} {take : Value → Except Defect α} {next : α → Reading β}
    {later : List CatalogFile} (htake : ∀ v, f.defect? v = failure? (take v))
    (hnext : ∀ a, failure? (next a).result = later.findSome? (trouble? folder files)) :
    failure? (readFile folder files f >>= fun v => takeApart folder (take v) >>= next).result =
      (f :: later).findSome? (trouble? folder files) := by
  rw [List.findSome?_cons]
  unfold trouble?
  change failure? (Reading.bind _ _).result = _
  unfold Reading.bind
  cases (readFile folder files f).result with
  | error e => rfl
  | ok v =>
      dsimp only
      rw [htake v]
      cases htaken : take v with
      | error d => rfl
      | ok a => exact hnext a

/-- The first file that gives trouble decides what the folder is refused for. -/
theorem failure?_load (folder : Text) (files : Text → Found) :
    failure? (load folder files).result = inOrder.findSome? (trouble? folder files) := by
  unfold load
  refine failure?_file (f := .objects) (fun _ => rfl) ?_
  rintro ⟨categories, things⟩
  refine failure?_file (f := .gestures) (fun _ => rfl) fun gestures => ?_
  refine failure?_file (f := .questions) (fun _ => rfl) fun questions => ?_
  refine failure?_file (f := .locations) (fun _ => rfl) fun locations => ?_
  exact failure?_file (f := .names) (fun _ => rfl) fun people => rfl

theorem load_eq_error_iff :
    (load folder files).result = .error e ↔
      ∃ f : CatalogFile, f.ReachedIn files ∧ f.Trouble folder (files f.name) e := by
  rw [← failure?_eq_some, failure?_load, List.findSome?_eq_some_iff]
  simp only [trouble?_eq_some, trouble?_eq_none]
  constructor
  · rintro ⟨before, f, after, horder, htrouble, hbefore⟩
    exact ⟨f, ⟨before, after, horder, hbefore⟩, htrouble⟩
  · rintro ⟨f, ⟨before, after, horder, hbefore⟩, htrouble⟩
    exact ⟨before, f, after, horder, htrouble, hbefore⟩

theorem load_eq_ok_iff :
    (∃ c, (load folder files).result = .ok c) ↔
      ∀ f : CatalogFile, f.Understood (files f.name) := by
  rw [← failure?_eq_none, failure?_load, List.findSome?_eq_none_iff]
  simp only [trouble?_eq_none, mem_inOrder, true_imp_iff]

theorem exists_trouble_of_illegible {found : Found} (h : Illegible found) (folder : Text)
    (f : CatalogFile) : ∃ e, f.Trouble folder found e ∧ ∀ ce, e ≠ .catalog ce := by
  cases h with
  | notText hbytes => exact ⟨_, .notText hbytes, by simp⟩
  | longNumber _ hread => exact ⟨_, .longNumber hread, by simp⟩

theorem illegible_or_catalog {found : Found} (h : f.Trouble folder found e)
    (regular : found = .missing ∨ ∃ bytes, found = .file bytes) :
    Illegible found ∨ ∃ ce, e = .catalog ce := by
  cases h with
  | blocked => simp at regular
  | folder => simp at regular
  | notText hbytes => exact .inl (.notText hbytes)
  | longNumber hread => exact .inl (.longNumber (Value.hasLongRun_of_read hread) hread)
  | malformed => exact .inr ⟨_, rfl⟩
  | defect => exact .inr ⟨_, rfl⟩

/-- A folder whose catalog files are regular files, where they are there, loads exactly if each of them
is understood. It is refused for the first trouble that reading comes to, with the file, or else with
the folder and the defect. This is a catalog error, unless reading comes to a file whose bytes are no
text or in whose text a number is too long. -/
theorem load_reports_first_trouble
    (regular : ∀ f : CatalogFile, files f.name = .missing ∨ ∃ bytes, files f.name = .file bytes) :
    ((∃ c, (load folder files).result = .ok c) ↔
      ∀ f : CatalogFile, f.Understood (files f.name)) ∧
    (∀ e, (load folder files).result = .error e ↔
      ∃ f : CatalogFile, f.ReachedIn files ∧ f.Trouble folder (files f.name) e) ∧
    (((∃ c, (load folder files).result = .ok c) ∨
        ∃ ce, (load folder files).result = .error (.catalog ce)) ↔
      ∀ f : CatalogFile, f.ReachedIn files → ¬ Illegible (files f.name)) := by
  refine ⟨load_eq_ok_iff, fun e => load_eq_error_iff, ?_⟩
  constructor
  · intro hreported f hreached hillegible
    obtain ⟨e, htrouble, hother⟩ := exists_trouble_of_illegible hillegible folder f
    have hrefused := load_eq_error_iff.mpr ⟨f, hreached, htrouble⟩
    rw [hrefused] at hreported
    rcases hreported with ⟨c, hc⟩ | ⟨ce, hce⟩
    · cases hc
    · exact hother ce (Except.error.inj hce)
  · intro hlegible
    cases hresult : (load folder files).result with
    | ok c => exact .inl ⟨c, rfl⟩
    | error e =>
        obtain ⟨f, hreached, htrouble⟩ := load_eq_error_iff.mp hresult
        rcases illegible_or_catalog htrouble (regular f) with hillegible | ⟨ce, rfl⟩
        · exact absurd hillegible (hlegible f hreached)
        · exact .inr ⟨ce, rfl⟩

/-- A gesture without a name is reported, and the names that are no text are not come to. -/
theorem load_reports_first_trouble_gesture :
    let files : Text → Found := fun name => (FileTree.folder
      [("gestures.json".toList, .file (Text.toUtf8 "[{}]".toList)),
        ("names.json".toList, .file ⟨#[0xff]⟩)]).find [name]
    (∀ f : CatalogFile, files f.name = .missing ∨ ∃ bytes, files f.name = .file bytes) ∧
      (load "home".toList files).result =
        .error (.catalog (.malformed "home".toList (.missingField "name".toList))) := by
  intro files
  have regular (f : CatalogFile) : files f.name = .missing ∨ ∃ bytes, files f.name = .file bytes := by
    cases f
    case gestures => exact .inr ⟨_, rfl⟩
    case names => exact .inr ⟨_, rfl⟩
    all_goals exact .inl rfl
  have hread : Value.read "[{}]".toList = .ok (.list [.object []]) := by cbv
  refine ⟨regular, ((load_reports_first_trouble regular).2.1 _).mpr ⟨.gestures, ?_, ?_⟩⟩
  · refine ⟨[.objects], [.questions, .locations, .names], rfl, ?_⟩
    exact List.forall_mem_singleton.mpr .leftOut
  · exact .defect hread rfl

/-! ### Files of names that are not reported -/

def namesAlone (bytes : ByteArray) (name : Text) : Found :=
  (FileTree.folder [(CatalogFile.names.name, .file bytes)]).find [name]

theorem reachedIn_namesAlone (bytes : ByteArray) : CatalogFile.names.ReachedIn (namesAlone bytes) := by
  refine ⟨[.objects, .gestures, .questions, .locations], [], rfl, ?_⟩
  simp only [List.forall_mem_cons]
  exact ⟨.leftOut, .leftOut, .leftOut, .leftOut, by simp⟩

theorem load_namesAlone {bytes : ByteArray}
    (h : CatalogFile.names.Trouble folder (.file bytes) e) :
    (load folder (namesAlone bytes)).result = .error e :=
  load_eq_error_iff.mpr ⟨.names, reachedIn_namesAlone bytes, h⟩

/-- A byte that starts no character and a number of one digit too many are not reported as a catalog
error, though the file of names is a regular file and stands alone. -/
theorem load_does_not_report :
    (∀ bytes, ∀ f : CatalogFile,
      namesAlone bytes f.name = .missing ∨ ∃ b, namesAlone bytes f.name = .file b) ∧
    (load "home".toList (namesAlone ⟨#[0xff]⟩)).result = .error .notUtf8 ∧
    (load "home".toList (namesAlone (Text.toUtf8 (List.replicate 4301 '9')))).result =
      .error .oversizedInteger := by
  refine ⟨fun bytes f => ?_, load_namesAlone (.notText fun t ht => ?_),
    load_namesAlone (.longNumber ?_)⟩
  · cases f
    case names => exact .inr ⟨bytes, rfl⟩
    all_goals exact .inl rfl
  · have hnone : Text.ofUtf8? ⟨#[0xff]⟩ = none := by rfl
    rw [Text.ofUtf8?_eq_some.mpr ht] at hnone
    cases hnone
  · change Value.read ('9' :: List.replicate 4300 '9') = _
    refine Value.read_of_digits ?_ (by decide) ?_
    · intro c hc
      obtain rfl : c = '9' := List.eq_of_mem_replicate (n := 4301) hc
      rfl
    · rw [List.length_replicate]
      exact Nat.le_refl _

end Catalog

end Errand
